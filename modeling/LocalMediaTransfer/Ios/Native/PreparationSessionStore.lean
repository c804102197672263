import LocalMediaTransfer.Lib.Run
import LocalMediaTransfer.Lib.Table

/-!
# The prepared files of a transfer session

`PreparationSessionStore.swift`: every session owns the files that were prepared for it, under two
indexes, with the hashes computed so far and the temporary storage it may use.  Each call holds the
lock for one look at the session and one change of it; a session is a value, which a call copies
and writes back at its end.  Sizes are `UInt64` in the source; no sum here exceeds a budget, so
natural numbers behave the same.

What Foundation does with URLs, characters and files is a parameter (`Platform`) or an argument of
the call (what `resourceValues`, `fileExists` and the clock answer).

* `Session` — a session with its records, indexes and charges.
* `Store.perform` — the calls.
* `Kept`, `all_of_run` — what every change of a session keeps holds of all sessions in every
  reachable store.
-/

set_option autoImplicit false

namespace LocalMediaTransfer

open Lib

namespace Preparation

/-- `PhotoMaterializationPath`. -/
inductive MaterializationPath where
  | photoResource
  | videoResource
  | rawResource
  | livePhotoMotion
  | currentImage
  | currentVideo
  deriving DecidableEq

/-- `PhotoPreparationError`, and what `resourceValues` throws. -/
inductive PreparationError where
  | rendition (code : String)
  | metadata (code : String)
  | resourceValues
  deriving DecidableEq

/-- What Foundation answers about text and URLs. -/
structure Platform (Url : Type) where
  standardizedFileURL : Url → Url
  /-- `fileUrl(from:)`: the URI as a file URL, or as a path. -/
  fileUrl : String → Url
  /-- `String.count`, in characters. -/
  count : String → Nat
  /-- `CharacterSet.alphanumerics`. -/
  alphanumerics : Char → Bool

/-- URLs that are their own standard form, and ASCII text. -/
def Platform.plain : Platform String where
  standardizedFileURL url := url
  fileUrl uri := uri
  count := String.length
  alphanumerics := Char.isAlphanum

/-- `validSessionRef`. -/
def Platform.validSessionRef {Url : Type} (P : Platform Url) (value : String) : Bool :=
  !value.isEmpty && P.count value ≤ 64 &&
    value.toList.all fun c => P.alphanumerics c || c == '-' || c == '_'

/-- What `resourceValues` says of a file. -/
structure ResourceValues where
  isRegularFile : Option Bool
  fileSize : Option Int
  contentModificationDate : Option Int
  deriving DecidableEq

section Types

variable (Url : Type)

structure PreparedRecord where
  variantId : String
  url : Url
  sizeBytes : Nat
  modificationDate : Option Int
  temporary : Bool
  materializationPath : MaterializationPath
  temporaryCreatedAtUptime : ℚ

structure Session where
  cancelled : Bool := false
  budgetBytes : Nat
  reservedBytes : Nat := 0
  recordsByVariant : Table String (PreparedRecord Url) := ∅
  variantByUrl : Table Url String := ∅
  hashesByVariant : Table String String := ∅
  /-- The IDs of the operations with a cancellation to call. -/
  operations : List Nat := []
  partialBytes : Table Url Nat := ∅

structure Store where
  sessions : Table String (Session Url) := ∅

end Types

variable {Url : Type}

structure PreparedFileSnapshot (Url : Type) where
  variantId : String
  url : Url
  sizeBytes : Nat
  modificationDate : Option Int

structure ReleasedPreparedFileMetrics where
  materializationPath : MaterializationPath
  temporaryBytesWritten : Nat
  temporaryLifetimeMs : ℚ

def storageReserveBytes : Nat := 1000000000
def maximumTemporaryBytes : Nat := 100000000000
def fallbackTemporaryBytes : Nat := 2000000000

/-- `temporaryBudget`, from the capacity that the volume reports. -/
def temporaryBudget (available : Option Int) : Nat :=
  match available with
  | none => fallbackTemporaryBytes
  | some available =>
      if available ≤ 0 then fallbackTemporaryBytes
      else if available.toNat ≤ storageReserveBytes then 0
      else min maximumTemporaryBytes (available.toNat - storageReserveBytes)

variable [DecidableEq Url]

/-! ## One session -/

namespace Session

/-- The part of `registerPreparedFile` for a temporary file: what its chunks have reserved becomes
part of its charge. -/
def charge (session : Session Url) (url : Url) (sizeBytes : Nat) :
    Except PreparationError (Session Url) :=
  let part := (session.partialBytes.lookup url).getD 0
  if sizeBytes < part then .error (.rendition "temporary-storage-limit")
  else
    let additional := sizeBytes - part
    if additional ≤ session.budgetBytes ∧
        session.reservedBytes ≤ session.budgetBytes - additional then
      .ok { session with
        reservedBytes := session.reservedBytes + additional
        partialBytes := session.partialBytes.erase url }
    else .error (.rendition "temporary-storage-limit")

/-- Both indexes get the record. -/
def insertRecord (session : Session Url) (record : PreparedRecord Url) : Session Url :=
  { session with
    recordsByVariant := session.recordsByVariant.insert record.variantId record
    variantByUrl := session.variantByUrl.insert record.url record.variantId }

/-- `registerPreparedFile` on the session. -/
def registerPreparedFile (P : Platform Url) (session : Session Url)
    (record : PreparedRecord Url) : Except PreparationError (Session Url) :=
  if session.cancelled then .error (.rendition "cancelled")
  else if record.variantId.isEmpty || 64 < P.count record.variantId ||
      (session.recordsByVariant.lookup record.variantId).isSome then
    .error (.metadata "invalid-prepared-file")
  else if record.temporary then
    (session.charge record.url record.sizeBytes).map fun session => session.insertRecord record
  else .ok (session.insertRecord record)

/-- `reserveTemporaryChunk` on the session. -/
def reserveTemporaryChunk (session : Session Url) (url : Url) (bytes : Nat) :
    Except PreparationError (Session Url) :=
  if session.cancelled then .error (.rendition "cancelled")
  else if bytes ≤ session.budgetBytes ∧ session.reservedBytes ≤ session.budgetBytes - bytes then
    .ok { session with
      reservedBytes := session.reservedBytes + bytes
      partialBytes :=
        session.partialBytes.insert url ((session.partialBytes.lookup url).getD 0 + bytes) }
  else .error (.rendition "temporary-storage-limit")

/-- `discardTemporaryReservation` on the session. -/
def discardTemporaryReservation (session : Session Url) (url : Url) : Session Url :=
  let bytes := (session.partialBytes.lookup url).getD 0
  { session with
    partialBytes := session.partialBytes.erase url
    reservedBytes := session.reservedBytes - min bytes session.reservedBytes }

/-- The session without a record, its hash and its charge. -/
def removeRecord (session : Session Url) (url : Url) (record : PreparedRecord Url)
    (variantId : String) : Session Url :=
  { session with
    variantByUrl := session.variantByUrl.erase url
    recordsByVariant := session.recordsByVariant.erase variantId
    hashesByVariant := session.hashesByVariant.erase variantId
    reservedBytes :=
      if record.temporary then
        if record.sizeBytes ≤ session.reservedBytes then session.reservedBytes - record.sizeBytes
        else 0
      else session.reservedBytes }

/-- `release` on the session: the record it removes and what is left. -/
def release (session : Session Url) (url : Url) : Option (PreparedRecord Url × Session Url) :=
  match session.variantByUrl.lookup url with
  | none => none
  | some variantId =>
      (session.recordsByVariant.lookup variantId).map fun record =>
        (record, session.removeRecord url record variantId)

/-- `snapshot` on the session. -/
def snapshot (session : Session Url) (variantId : String) (requestedUrl : Url)
    (expectedSizeBytes : Nat) : Option (PreparedFileSnapshot Url) :=
  match session.recordsByVariant.lookup variantId with
  | none => none
  | some record =>
      if !session.cancelled && decide (record.url = requestedUrl) &&
          record.sizeBytes == expectedSizeBytes then
        some ⟨variantId, record.url, record.sizeBytes, record.modificationDate⟩
      else none

/-- `cacheHash` on the session. -/
def cacheHash (session : Session Url) (variantId sha256 : String) : Session Url :=
  if (session.recordsByVariant.lookup variantId).isSome && !session.cancelled then
    { session with hashesByVariant := session.hashesByVariant.insert variantId sha256 }
  else session

/-- `registerOperation` on the session. -/
def registerOperation (session : Session Url) (id : Nat) (completed : Bool) : Session Url :=
  if !completed && !session.cancelled then
    { session with operations := session.operations.erase id ++ [id] }
  else session

end Session

/-! ## The store -/

namespace Store

variable (P : Platform Url) (s : Store Url)

/-- Change one session, if it is there. -/
def modify (sessionRef : String) (f : Session Url → Session Url) : Store Url :=
  match s.sessions.lookup sessionRef with
  | none => s
  | some session => { s with sessions := s.sessions.insert sessionRef (f session) }

/-- Change one session by a call that may throw; a missing session counts as cancelled. -/
def modifyThrowing (sessionRef : String)
    (f : Session Url → Except PreparationError (Session Url)) : Option
    PreparationError × Store Url :=
  match s.sessions.lookup sessionRef with
  | none => (some (.rendition "cancelled"), s)
  | some session =>
      match f session with
      | .error e => (some e, s)
      | .ok session => (none, { s with sessions := s.sessions.insert sessionRef session })

/-- `begin`. -/
def begin_ (sessionRef : String) (available : Option Int) : Store Url :=
  if P.validSessionRef sessionRef then
    { s with sessions :=
        s.sessions.insert sessionRef { budgetBytes := temporaryBudget available } }
  else s

/-- `cancel`. -/
def cancel (sessionRef : String) : Store Url :=
  s.modify sessionRef fun session => { session with cancelled := true, operations := [] }

/-- `end`. -/
def end_ (sessionRef : String) : Store Url :=
  { s.cancel sessionRef with sessions := (s.cancel sessionRef).sessions.erase sessionRef }

/-- `isCancelled`. -/
def isCancelled (sessionRef : String) : Bool :=
  ((s.sessions.lookup sessionRef).map (·.cancelled)).getD true

/-- The guard of `registerPreparedFile` on the file. -/
def sizeConfirmed (values : ResourceValues) (sizeBytes : Nat) : Bool :=
  values.isRegularFile != some false &&
    values.fileSize.any fun actualSize => decide (0 < actualSize ∧ actualSize.toNat = sizeBytes)

/-- `registerPreparedFile`; `values` is what `resourceValues` answers. -/
def registerPreparedFile (sessionRef variantId : String) (url : Url) (sizeBytes : Nat)
    (temporary : Bool) (materializationPath : MaterializationPath)
    (temporaryCreatedAtUptime : Option ℚ) (values : Option ResourceValues) (systemUptime : ℚ) :
    Option PreparationError × Store Url :=
  match values with
  | none => (some .resourceValues, s)
  | some values =>
      if sizeConfirmed values sizeBytes then
        s.modifyThrowing sessionRef fun session =>
          session.registerPreparedFile P
            { variantId
              url := P.standardizedFileURL url
              sizeBytes
              modificationDate := values.contentModificationDate
              temporary
              materializationPath
              temporaryCreatedAtUptime := temporaryCreatedAtUptime.getD systemUptime }
      else (some (.metadata "file-size-unavailable"), s)

/-- `reserveTemporaryChunk`. -/
def reserveTemporaryChunk (sessionRef : String) (url : Url) (bytes : Nat) :
    Option PreparationError × Store Url :=
  s.modifyThrowing sessionRef fun session =>
    session.reserveTemporaryChunk (P.standardizedFileURL url) bytes

/-- `discardTemporaryReservation`; the charge stays when the file could not be removed. -/
def discardTemporaryReservation (sessionRef : String) (url : Url) (fileExists : Bool) :
    Store Url :=
  if fileExists then s
  else s.modify sessionRef fun session =>
    session.discardTemporaryReservation (P.standardizedFileURL url)

/-- `release`. -/
def release (sessionRef uri : String) (systemUptime : ℚ) :
    Option ReleasedPreparedFileMetrics × Store Url :=
  let url := P.standardizedFileURL (P.fileUrl uri)
  match (s.sessions.lookup sessionRef).bind fun session => session.release url with
  | none => (none, s)
  | some (record, session) =>
      (some
        { materializationPath := record.materializationPath
          temporaryBytesWritten := if record.temporary then record.sizeBytes else 0
          temporaryLifetimeMs := max 0 ((systemUptime - record.temporaryCreatedAtUptime) * 1000) },
        { s with sessions := s.sessions.insert sessionRef session })

/-- `snapshot`. -/
def snapshot (sessionRef variantId uri : String) (expectedSizeBytes : Nat) :
    Option (PreparedFileSnapshot Url) :=
  (s.sessions.lookup sessionRef).bind fun session =>
    session.snapshot variantId (P.standardizedFileURL (P.fileUrl uri)) expectedSizeBytes

/-- `cachedHash`. -/
def cachedHash (sessionRef variantId : String) : Option String :=
  (s.sessions.lookup sessionRef).bind fun session => session.hashesByVariant.lookup variantId

/-- `cacheHash`. -/
def cacheHash (sessionRef variantId sha256 : String) : Store Url :=
  s.modify sessionRef fun session => session.cacheHash variantId sha256

/-- `completeOperation`. -/
def completeOperation (sessionRef : String) (id : Nat) : Store Url :=
  s.modify sessionRef fun session => { session with operations := session.operations.erase id }

end Store

/-- The calls that may change the store, with what Foundation answers in them. -/
inductive StoreCall (Url : Type) where
  | begin_ (sessionRef : String) (available : Option Int)
  | cancel (sessionRef : String)
  | end_ (sessionRef : String)
  | endAll
  | registerPreparedFile (sessionRef variantId : String) (url : Url) (sizeBytes : Nat)
      (temporary : Bool) (materializationPath : MaterializationPath)
      (temporaryCreatedAtUptime : Option ℚ) (values : Option ResourceValues) (systemUptime : ℚ)
  | reserveTemporaryChunk (sessionRef : String) (url : Url) (bytes : Nat)
  | discardTemporaryReservation (sessionRef : String) (url : Url) (fileExists : Bool)
  | release (sessionRef uri : String) (systemUptime : ℚ)
  | cacheHash (sessionRef variantId sha256 : String)
  | registerOperation (sessionRef : String) (id : Nat) (completed : Bool)
  | completeOperation (sessionRef : String) (id : Nat)

/-- A call: what it throws, and the store behind it. -/
def Store.perform (P : Platform Url) (s : Store Url) :
    StoreCall Url → Option PreparationError × Store Url
  | .begin_ sessionRef available => (none, s.begin_ P sessionRef available)
  | .cancel sessionRef => (none, s.cancel sessionRef)
  | .end_ sessionRef => (none, s.end_ sessionRef)
  | .endAll => (none, {})
  | .registerPreparedFile sessionRef variantId url sizeBytes temporary path created values uptime =>
      s.registerPreparedFile P sessionRef variantId url sizeBytes temporary path created values
        uptime
  | .reserveTemporaryChunk sessionRef url bytes => s.reserveTemporaryChunk P sessionRef url bytes
  | .discardTemporaryReservation sessionRef url fileExists =>
      (none, s.discardTemporaryReservation P sessionRef url fileExists)
  | .release sessionRef uri uptime => (none, (s.release P sessionRef uri uptime).2)
  | .cacheHash sessionRef variantId sha256 => (none, s.cacheHash sessionRef variantId sha256)
  | .registerOperation sessionRef id completed =>
      (none, s.modify sessionRef fun session => session.registerOperation id completed)
  | .completeOperation sessionRef id => (none, s.completeOperation sessionRef id)

/-- A call as a step of the store. -/
def Store.step (P : Platform Url) (s : Store Url) (c : StoreCall Url) : Option (Store Url) :=
  some (s.perform P c).2

/-! ## Properties of every session -/

/-- The record that a call registers in a session, if it gets that far. -/
def StoreCall.registers (P : Platform Url) :
    StoreCall Url → Option (String × PreparedRecord Url)
  | .registerPreparedFile sessionRef variantId url sizeBytes temporary path created values uptime =>
      values.map fun values => (sessionRef,
        { variantId
          url := P.standardizedFileURL url
          sizeBytes
          modificationDate := values.contentModificationDate
          temporary
          materializationPath := path
          temporaryCreatedAtUptime := created.getD uptime })
  | _ => none

/-- Every record is registered in a session that admits it. -/
def Store.Admits (P : Platform Url) (admits : Session Url → PreparedRecord Url → Prop)
    (s : Store Url) (c : StoreCall Url) : Prop :=
  ∀ sessionRef record session, c.registers P = some (sessionRef, record) →
    s.sessions.lookup sessionRef = some session → admits session record

/-- A property that a new session has and every change of a session keeps. -/
structure Kept (P : Platform Url) (admits : Session Url → PreparedRecord Url → Prop)
    (I : Session Url → Prop) : Prop where
  fresh : ∀ budget, I { budgetBytes := budget }
  cancel : ∀ session, I session → I { session with cancelled := true, operations := [] }
  operations : ∀ session operations, I session → I { session with operations }
  register : ∀ session record session', I session → admits session record →
    session.registerPreparedFile P record = .ok session' → I session'
  reserve : ∀ session url bytes session', I session →
    session.reserveTemporaryChunk url bytes = .ok session' → I session'
  discard : ∀ session url, I session → I (session.discardTemporaryReservation url)
  release : ∀ session url record session', I session →
    session.release url = some (record, session') → I session'
  cacheHash : ∀ session variantId sha256, I session → I (session.cacheHash variantId sha256)

/-- The same for a property of the hashes too: a hash is only cached in a session that admits it. -/
structure KeptBy (P : Platform Url) (admits : Session Url → PreparedRecord Url → Prop)
    (hashes : Session Url → String → String → Prop) (I : Session Url → Prop) : Prop where
  fresh : ∀ budget, I { budgetBytes := budget }
  cancel : ∀ session, I session → I { session with cancelled := true, operations := [] }
  operations : ∀ session operations, I session → I { session with operations }
  register : ∀ session record session', I session → admits session record →
    session.registerPreparedFile P record = .ok session' → I session'
  reserve : ∀ session url bytes session', I session →
    session.reserveTemporaryChunk url bytes = .ok session' → I session'
  discard : ∀ session url, I session → I (session.discardTemporaryReservation url)
  release : ∀ session url record session', I session →
    session.release url = some (record, session') → I session'
  cacheHash : ∀ session variantId sha256, I session → hashes session variantId sha256 →
    I (session.cacheHash variantId sha256)

theorem Kept.by {P : Platform Url} {admits : Session Url → PreparedRecord Url → Prop}
    {I : Session Url → Prop} (h : Kept P admits I) : KeptBy P admits (fun _ _ _ => True) I :=
  { h with cacheHash := fun session variantId sha256 hI _ =>
    h.cacheHash session variantId sha256 hI }

/-- All sessions of the store have the property. -/
def Store.All (I : Session Url → Prop) (s : Store Url) : Prop :=
  ∀ sessionRef session, s.sessions.lookup sessionRef = some session → I session

section All

variable {P : Platform Url} {admits : Session Url → PreparedRecord Url → Prop}
  {I : Session Url → Prop} {s : Store Url}

omit [DecidableEq Url] in
theorem all_insert (h : s.All I) {session : Session Url} (hsession : I session) (ref : String) :
    Store.All I { s with sessions := s.sessions.insert ref session } := by
  intro sessionRef other hother
  by_cases heq : sessionRef = ref
  · subst heq
    obtain rfl : session = other := by simpa using hother
    exact hsession
  · exact h sessionRef other (by simpa [AList.lookup_insert_ne heq] using hother)

omit [DecidableEq Url] in
theorem all_erase (h : s.All I) (ref : String) :
    Store.All I { s with sessions := s.sessions.erase ref } := by
  intro sessionRef other hother
  by_cases heq : sessionRef = ref
  · subst heq
    simp at hother
  · exact h sessionRef other (by simpa [AList.lookup_erase_ne heq] using hother)

omit [DecidableEq Url] in
theorem all_modify (h : s.All I) {ref : String} {f : Session Url → Session Url}
    (hf : ∀ session, s.sessions.lookup ref = some session → I session → I (f session)) :
    (s.modify ref f).All I := by
  unfold Store.modify
  split
  · exact h
  · rename_i session hsession
    exact all_insert h (hf session hsession (h ref session hsession)) ref

omit [DecidableEq Url] in
theorem all_modifyThrowing (h : s.All I) {ref : String}
    {f : Session Url → Except PreparationError (Session Url)}
    (hf : ∀ session session', s.sessions.lookup ref = some session → I session →
      f session = .ok session' → I session') :
    (s.modifyThrowing ref f).2.All I := by
  unfold Store.modifyThrowing
  split
  · exact h
  · rename_i session hsession
    split
    · exact h
    · rename_i session' hf'
      exact all_insert h (hf session session' hsession (h ref session hsession) hf') ref

theorem perform_all_by {hashes : Session Url → String → String → Prop}
    (hkept : KeptBy P admits hashes I) (h : s.All I) {c : StoreCall Url}
    (hadmits : s.Admits P admits c)
    (hhashes : ∀ ref variantId sha256 session, c = .cacheHash ref variantId sha256 →
      s.sessions.lookup ref = some session → hashes session variantId sha256) :
    (s.perform P c).2.All I := by
  cases c with
  | begin_ ref available =>
    simp only [Store.perform, Store.begin_]
    split
    · exact all_insert h (hkept.fresh _) ref
    · exact h
  | cancel ref => exact all_modify h fun session _ => hkept.cancel session
  | end_ ref => exact all_erase (all_modify h fun session _ => hkept.cancel session) ref
  | endAll =>
    intro ref session hsession
    cases hsession
  | registerPreparedFile ref variantId url sizeBytes temporary path created values uptime =>
    simp only [Store.perform, Store.registerPreparedFile]
    split
    · exact h
    · split
      · exact all_modifyThrowing h fun session session' hsession hI =>
          hkept.register session _ session' hI (hadmits ref _ session rfl hsession)
      · exact h
  | reserveTemporaryChunk ref url bytes =>
    exact all_modifyThrowing h fun session session' _ => hkept.reserve session _ bytes session'
  | discardTemporaryReservation ref url fileExists =>
    simp only [Store.perform, Store.discardTemporaryReservation]
    split
    · exact h
    · exact all_modify h fun session _ => hkept.discard session _
  | release ref uri uptime =>
    simp only [Store.perform, Store.release]
    split
    · exact h
    · rename_i record session' hrelease
      obtain ⟨session, hsession, hrelease⟩ := Option.bind_eq_some_iff.mp hrelease
      exact all_insert h (hkept.release session _ record session' (h ref session hsession) hrelease)
        ref
  | cacheHash ref variantId sha256 =>
    exact all_modify h fun session hsession hI => hkept.cacheHash session variantId sha256 hI
      (hhashes ref variantId sha256 session rfl hsession)
  | registerOperation ref id completed =>
    refine all_modify h fun session _ hI => ?_
    unfold Session.registerOperation
    split
    · exact hkept.operations session _ hI
    · exact hI
  | completeOperation ref id => exact all_modify h fun session _ => hkept.operations session _

/-- **Every call keeps such a property of all sessions.** -/
theorem perform_all (hkept : Kept P admits I) (h : s.All I) {c : StoreCall Url}
    (hadmits : s.Admits P admits c) : (s.perform P c).2.All I :=
  perform_all_by hkept.by h hadmits fun _ _ _ _ _ _ => trivial

/-- **Every session of every reachable store has it.** -/
theorem all_of_run (hkept : Kept P admits I)
    (hrun : Run (Store.step P) (Store.Admits P admits) {} s) : s.All I := by
  refine hrun.invariant (I := Store.All I) (fun ref session hsession => by cases hsession) ?_
  intro s c s' hs hadmits hstep
  obtain rfl : (s.perform P c).2 = s' := Option.some.inj hstep
  exact perform_all hkept hs hadmits

end All

/-- **A call that throws leaves the store as it is.** -/
theorem perform_throws {P : Platform Url} {s : Store Url} {c : StoreCall Url}
    {e : PreparationError} (h : (s.perform P c).1 = some e) : (s.perform P c).2 = s := by
  have hthrowing : ∀ ref f, (s.modifyThrowing ref f).1 = some e →
    (s.modifyThrowing ref f).2 = s := by
    intro ref f h
    unfold Store.modifyThrowing at h ⊢
    split
    · rfl
    · split
      · rfl
      · rename_i hlookup _ _ hf
        simp [hlookup, hf] at h
  cases c with
  | registerPreparedFile ref variantId url sizeBytes temporary path created values uptime =>
    simp only [Store.perform, Store.registerPreparedFile] at h ⊢
    cases values with
    | none => rfl
    | some values =>
      simp only at h ⊢
      split at h
      · rename_i hsize
        rw [if_pos hsize]
        exact hthrowing _ _ h
      · rename_i hsize
        rw [if_neg hsize]
  | reserveTemporaryChunk ref url bytes => exact hthrowing _ _ h
  | _ => cases h

end Preparation

end LocalMediaTransfer
