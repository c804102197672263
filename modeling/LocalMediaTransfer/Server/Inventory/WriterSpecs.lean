import LocalMediaTransfer.Server.Inventory.WriterSight

/-!
# Specifications of the writers

* `does_verifyPreflight` — a preflight request, with what is known of its cache.
* `does_verifyInventoryRecord`, `does_storeHash`, `does_finalize` — a finished upload: a hash is
  entered with the size and the time that the file has in the same period.
* `does_reconcileDirectory`, `does_runBackgroundIndexing` — the rows of the whole directory.
* `does_program` — **every writer enters only rows that tell of a state of the file**.
-/

set_option autoImplicit false

namespace LocalMediaTransfer

namespace InventoryWriters

open Lib HashEngine Preflight

variable {θ : Type} [DecidableEq θ] {sha256 : ByteString → ByteString} {t : θ}

/-! ## The cache of a request -/

/-- Every entry of the cache is known of its file. -/
def CacheKnown (sha256 : ByteString → ByteString) (hashCache : Option PreflightHashCache)
    (s : World θ) : Prop :=
  ∀ cache ∈ hashCache, ∀ filename entry, cache.lookup filename = some entry →
    Known sha256 filename.filename entry.sha256 entry.sizeBytes entry.modifiedTime s

section Cache

variable {hashCache : Option PreflightHashCache} {filename : ByteString} {sizeBytes : Nat}
  {modifiedTime : Int} {s : World θ}

omit [DecidableEq θ] in
theorem lasting_cacheKnown (hashCache : Option PreflightHashCache) :
    Lasting (θ := θ) (CacheKnown sha256 hashCache) :=
  fun s s' hp h cache hcache filename entry he =>
    lasting_known s s' hp (h cache hcache filename entry he)

omit [DecidableEq θ] in
theorem CacheKnown.cached (h : CacheKnown sha256 hashCache s) (filename : ByteString)
    (sizeBytes : Nat) (modifiedTime : Int) :
    Known sha256 filename.filename (cachedHash hashCache filename sizeBytes modifiedTime)
      sizeBytes modifiedTime s := by
  unfold cachedHash
  split
  · rename_i entry hentry
    obtain ⟨cache, hcache, hlookup⟩ := Option.bind_eq_some_iff.mp hentry
    split
    · rename_i hsame
      obtain ⟨rfl, rfl⟩ := hsame
      exact h cache hcache filename entry hlookup
    · exact fun hne => absurd rfl hne
  · exact fun hne => absurd rfl hne

omit [DecidableEq θ] in
theorem CacheKnown.remember (h : CacheKnown sha256 hashCache s) {entry : PreflightHashCacheEntry}
    (hentry : Known sha256 filename.filename entry.sha256 entry.sizeBytes entry.modifiedTime s) :
    CacheKnown sha256 (rememberHash hashCache filename entry) s := by
  intro cache' hcache' other e he
  obtain ⟨cache, hcache, rfl⟩ := Option.map_eq_some_iff.mp (Option.mem_def.mp hcache')
  by_cases heq : other = filename
  · subst heq
    rw [AList.lookup_insert] at he
    rwa [← Option.some.inj he]
  · rw [AList.lookup_insert_ne heq] at he
    split at he
    · rw [AList.lookup_empty] at he
      cases he
    · exact h cache hcache other e he

/-- The hash that a verification uses. -/
theorem does_candidateHash :
    Does sha256 t (fun s => Sees t (.verifying filename.filename) filename.filename
        (Excused filename.filename modifiedTime) false (fun f => f.modifiedTime = modifiedTime) s ∧
        CacheKnown sha256 hashCache s)
      (candidateHash hashCache filename sizeBytes modifiedTime) fun r s =>
        Known sha256 filename.filename r.1 sizeBytes modifiedTime s ∧
          CacheKnown sha256 r.2 s := by
  have hw := watches_verifying t filename.filename modifiedTime
  have hsettled : ∀ r : ByteString × Option PreflightHashCache, Settled t fun s =>
      Known sha256 filename.filename r.1 sizeBytes modifiedTime s ∧ CacheKnown sha256 r.2 s :=
    fun r => (lasting_known.and (lasting_cacheKnown r.2)).settled t
  unfold candidateHash
  simp only
  split
  · exact does_pure (hsettled _) fun s h => ⟨h.2.cached filename sizeBytes modifiedTime, h.2⟩
  · refine does_bind (does_frame (lasting_cacheKnown hashCache)
      (does_computeFileHash hw (fun _ h => h) (some sizeBytes)
        (does_open_verifying hw fun _ => rfl))) fun computed => ?_
    have hknown : ∀ s : World θ, (computed ≠ [] → Sees t (.verifying filename.filename)
        filename.filename (Excused filename.filename modifiedTime) false (fun f =>
          f.modifiedTime = modifiedTime ∧ sha256 f.content = computed ∧
            ∀ size ∈ some sizeBytes, f.size = size) s) →
        Known sha256 filename.filename computed sizeBytes modifiedTime s :=
      fun s h => Sees.known h fun f hq => ⟨hq.2.2 sizeBytes rfl, hq.1, hq.2.1⟩
    split
    · exact does_pure (hsettled _) fun s h => ⟨fun hne => absurd rfl hne, h.2⟩
    · exact does_pure (hsettled _) fun s h => ⟨hknown s h.1, h.2.remember (hknown s h.1)⟩

end Cache

/-! ## Preflight requests -/

section Preflights

variable {q : PreflightQuery}

/-- The scan's cache is known. -/
abbrev ScanKnown (sha256 : ByteString → ByteString) (scan : Scan) : World θ → Prop :=
  CacheKnown sha256 scan.hashCache

theorem does_recheckCandidate {candidate : FileInventoryRecord} {actualSize : Nat}
    {modifiedTime : Int} {actualHash : ByteString} (scan : Scan) :
    Does sha256 t (fun s => Known sha256 candidate.filename.filename actualHash actualSize
        modifiedTime s ∧ ScanKnown sha256 scan s)
      (recheckCandidate q candidate actualSize modifiedTime actualHash scan)
      fun r => ScanKnown sha256 r.2 := by
  have hlasting := @lasting_cacheKnown θ sha256 scan.hashCache
  refine does_bind (does_lasting (c := .fileSize .preflightAfter candidate.filename.filename)
    (lasting_known.and hlasting) fun _ _ => rfl) fun afterSize => ?_
  refine does_bind (does_frame hlasting does_timeAfter) fun afterModifiedTime => ?_
  have hafter := ((Lasting.imp (θ := θ) (p := afterModifiedTime = modifiedTime) fun _ =>
    @lasting_tells θ sha256 candidate.filename.filename actualHash actualSize
      modifiedTime).and hlasting).settled t
  cases afterSize with
  | none => exact does_pure (hlasting.settled t) fun s h => h.2
  | some size =>
    simp only
    split
    · refine does_bind (does_now hafter) fun now => ?_
      refine does_bind (does_upsertFile hafter fun s _ hne => absurd rfl hne) fun _ => ?_
      exact does_pure (hlasting.settled t) fun s h => h.2
    · rename_i hsame
      have htime : afterModifiedTime = modifiedTime := by
        by_contra hne
        exact hsame (.inr hne)
      refine does_bind (does_now hafter) fun now => ?_
      refine does_bind (does_upsertFile hafter fun s h => h.1 htime) fun _ => ?_
      split
      · exact does_pure (hlasting.settled t) fun s h => h.2
      · exact does_pure (hlasting.settled t) fun s h => h.2

theorem does_hashCandidate {candidate : FileInventoryRecord} {actualSize : Nat} (scan : Scan) :
    Does sha256 t (ScanKnown sha256 scan) (hashCandidate q candidate actualSize scan)
      fun r => ScanKnown sha256 r.2 := by
  have hlasting := @lasting_cacheKnown θ sha256 scan.hashCache
  refine does_bind (R := fun m s => Sees t (.verifying candidate.filename.filename)
      candidate.filename.filename (Excused candidate.filename.filename m) false
        (fun f => f.modifiedTime = m) s ∧ ScanKnown sha256 scan s)
    (does_conseq (does_frame hlasting (does_timeBefore (P := fun _ => True) (fun _ _ _ h => h)
      fun _ => rfl)) (fun s h => ⟨trivial, h⟩) fun _ _ h => h) fun modifiedTime => ?_
  simp only
  split
  · exact does_pure (hlasting.settled t) fun s h => h.2
  · refine does_bind does_candidateHash fun r => ?_
    obtain ⟨actualHash, hashCache⟩ := r
    simp only
    split
    · exact does_pure ((lasting_cacheKnown hashCache).settled t) fun s h => h.2
    · exact does_recheckCandidate { scan with hashCache }

theorem does_verifyCandidate {candidate : FileInventoryRecord} (scan : Scan) :
    Does sha256 t (ScanKnown sha256 scan) (verifyCandidate q candidate scan)
      fun r => ScanKnown sha256 r.2 := by
  have hlasting := @lasting_cacheKnown θ sha256 scan.hashCache
  refine does_bind (does_status hlasting) fun status => ?_
  split
  · refine does_bind (does_query (c := .removeFile _) (hlasting.settled t) rfl) fun _ => ?_
    exact does_pure (hlasting.settled t) fun s h => h
  · refine does_bind (does_lasting (c := .fileSize .preflightBefore _) hlasting
      fun _ _ => rfl) fun size => ?_
    cases size with
    | none => exact does_pure (hlasting.settled t) fun s h => h
    | some actualSize =>
      simp only
      split
      · exact does_pure (hlasting.settled t) fun s h => h
      · exact does_hashCandidate (scan.conflictIf _)

theorem does_verifyCandidates (candidates : List FileInventoryRecord) (scan : Scan) :
    Does sha256 t (ScanKnown sha256 scan) (verifyCandidates q candidates scan)
      fun r => ScanKnown sha256 r.2 := by
  induction candidates generalizing scan with
  | nil => exact does_pure ((lasting_cacheKnown scan.hashCache).settled t) fun s h => h
  | cons candidate rest ih =>
    refine does_bind (does_verifyCandidate scan) fun r => ?_
    obtain ⟨found, scan'⟩ := r
    cases found with
    | true => exact does_pure ((lasting_cacheKnown scan'.hashCache).settled t) fun s h => h
    | false => exact ih scan'

/-- What a page loop returns. -/
abbrev PagesKnown (sha256 : ByteString → ByteString)
    (r : Option (Preflight.PreflightResult × Scan))
    (s : World θ) : Prop :=
  ∀ answer ∈ r, ScanKnown sha256 answer.2 s

omit [DecidableEq θ] in
theorem settled_pagesKnown (r : Option (Preflight.PreflightResult × Scan)) :
    Settled (θ := θ) t (PagesKnown sha256 r) :=
  fun s s' hc h answer hr => (lasting_cacheKnown _).settled t s s' hc (h answer hr)

theorem does_nextCandidates {scan : Scan} (knownHashPages : Bool) (afterFilename : ByteString) :
    Does sha256 t (ScanKnown sha256 scan) (nextCandidates q knownHashPages afterFilename)
      fun _ => ScanKnown sha256 scan := by
  have hlasting := @lasting_cacheKnown θ sha256 scan.hashCache
  cases knownHashPages with
  | true => exact does_query (c := .findByHash _ _) (hlasting.settled t) rfl
  | false => exact does_query (c := .findVerificationCandidates _ _ _ _) (hlasting.settled t) rfl

theorem does_verifyPages (fuel : Nat) (knownHashPages : Bool) (afterFilename : ByteString)
    (scan : Scan) : Does sha256 t (ScanKnown sha256 scan)
      (verifyPages q fuel knownHashPages afterFilename scan) (PagesKnown sha256) := by
  induction fuel generalizing knownHashPages afterFilename scan with
  | zero => exact does_pure (settled_pagesKnown _) fun _ _ _ h => by cases h
  | succ fuel ih =>
    refine does_bind (does_nextCandidates knownHashPages afterFilename) fun candidates => ?_
    split
    · split
      · exact ih false [] scan
      · exact does_pure (settled_pagesKnown _) fun s h answer hr => by cases hr; exact h
    · refine does_bind (does_verifyCandidates candidates scan) fun r => ?_
      obtain ⟨found, scan'⟩ := r
      cases found with
      | some name =>
        exact does_pure (settled_pagesKnown _) fun s h answer hr => by cases hr; exact h
      | none => exact ih knownHashPages _ scan'

theorem does_exactCandidates (scan : Scan) (safeName : ByteString) :
    Does sha256 t (ScanKnown sha256 scan) (exactCandidates safeName)
      fun _ => ScanKnown sha256 scan := by
  have hlasting := @lasting_cacheKnown θ sha256 scan.hashCache
  refine does_bind (does_status hlasting) fun status => ?_
  split
  · refine does_bind (does_lasting (c := .fileSize .exactCandidate _) hlasting
      fun _ _ => rfl) fun size => ?_
    exact does_pure (hlasting.settled t) fun s h => h
  · exact does_pure (hlasting.settled t) fun s h => h

/-- **`verifyPreflight`** keeps what is known of the cache. -/
theorem does_verifyPreflight (fuel : Nat) (env : NameEnv) (originalName : ByteString)
    (sizeBytes : Nat) (expected : ByteString) (hashCache : Option PreflightHashCache) :
    Does sha256 t (CacheKnown sha256 hashCache)
      (verifyPreflight fuel env originalName sizeBytes expected hashCache)
      (PagesKnown sha256) := by
  unfold verifyPreflight
  split
  · exact does_pure (settled_pagesKnown _) fun s h answer hr => by cases hr; exact h
  · refine does_bind (does_exactCandidates (.start hashCache) _) fun candidates => ?_
    refine does_bind (does_verifyCandidates candidates (.start hashCache)) fun r => ?_
    obtain ⟨found, scan⟩ := r
    cases found with
    | some name =>
      exact does_pure (settled_pagesKnown _) fun s h answer hr => by cases hr; exact h
    | none => exact does_verifyPages fuel true [] scan

theorem does_verifyRequest (fuel : Nat) (env : NameEnv)
    (files : List (ByteString × Nat × ByteString)) (hashCache : Option PreflightHashCache) :
    Does (θ := θ) sha256 t (CacheKnown sha256 hashCache) (verifyRequest fuel env files hashCache)
      fun _ _ => True := by
  induction files generalizing hashCache with
  | nil => exact does_pure (fun _ _ _ h => h) fun _ _ => trivial
  | cons file rest ih =>
    refine does_bind (does_verifyPreflight fuel env _ _ _ hashCache) fun r => ?_
    cases r with
    | none => exact does_pure (fun _ _ _ h => h) fun _ _ => trivial
    | some answer =>
      refine does_conseq (ih answer.2.hashCache) (fun s h => ?_) fun _ _ h => h
      exact h answer (Option.mem_some_self answer)

end Preflights

/-! ## Records of finished uploads -/

/-- Thread `t` is between the hash of a file and the time that it records with it. -/
def Recorded (sha256 : ByteString → ByteString) (t : θ) (name hash : ByteString) (s : World θ) :
    Prop :=
  hash ≠ [] → Sees t (.recording name) name (fun _ => False) false
    (fun f => sha256 f.content = hash) s

section Records

variable {name hash filename : ByteString} {P : World θ → Prop}

/-- Nothing has to hold afterwards. -/
abbrev Anything {α : Type} (_ : α) (_ : World θ) : Prop := True

omit [DecidableEq θ] in
theorem settled_true : Settled t fun _ : World θ => True := fun _ _ _ h => h

omit [DecidableEq θ] in
theorem settled_recorded : Settled t (Recorded sha256 t name hash) := fun s s' hc h hne =>
  (watches_recording t name).settled (fun _ _ => trivial) s s' hc (h hne)

/-- Together with the time read in the period, size and hash tell of the file. -/
theorem does_timeTold {site : Site} {sizeBytes : Nat} :
    Does sha256 t (fun s => hash ≠ [] → Sees t (.recording name) name (fun _ => False) false
        (fun f => sha256 f.content = hash ∧ f.size = sizeBytes) s)
      (fileModifiedTime site name) fun m s => Tells sha256 name hash sizeBytes m s ∧
        ((∀ hold, holdAfterTime site name hold = hold) → Recorded sha256 t name hash s) := by
  refine does_file (c := .lastWriteTime site name) (fun s s' hc h hne =>
      (watches_recording t name).settled (fun _ _ => trivial) s s' hc (h hne))
    (fun m => (lasting_tells.settled t).and fun s s' hc h hsite =>
      settled_recorded s s' hc (h hsite)) ?_
  intro s d _ _ h
  refine ⟨lasting_tells.of_history (s := s) rfl fun hne => ?_, fun hsite hne => ?_⟩
  · obtain ⟨-, hex | ⟨f, hf, ⟨hsha, hsize⟩, -⟩⟩ := h hne
    · exact hex.elim
    · simp only [performFile, hf]
      split
      · exact .inl rfl
      · exact .inr ⟨f, had_of_file hf, hsize, rfl, hsha⟩
  · simp only [performFile, hsite, setHold_self]
    exact (h hne).imp fun f hq => hq.1

/-- **`verifyInventoryRecord`**: a verified file can be recorded. -/
theorem does_verifyInventoryRecord (expectedSize : Nat) :
    Does sha256 t (fun _ => True) (Preflight.verifyInventoryRecord filename expectedSize hash)
      fun b s => b = true → Recorded sha256 t filename.filename hash s := by
  have hfalse : ∀ {P : World θ → Prop}, Does sha256 t P (pure false) fun b s =>
      b = true → Recorded sha256 t filename.filename hash s :=
    does_pure (fun _ _ _ _ h => by cases h) fun _ _ h => by cases h
  have hremove : Does sha256 t (fun _ : World θ => True) (do
      HashEngine.removeFile filename
      return false) fun b s => b = true → Recorded sha256 t filename.filename hash s :=
    does_bind (does_query (c := .removeFile _) settled_true rfl) fun _ => hfalse
  refine does_bind (does_status (lasting_const True)) fun status => ?_
  split
  · exact hremove
  refine does_bind (does_lasting (c := .fileSize .verifyRecord _) (lasting_const True)
    fun _ _ => rfl) fun size => ?_
  cases size with
  | none => exact hremove
  | some actualSize =>
    simp only
    split
    · exact hremove
    refine does_bind (does_computeFileHash (watches_recording t filename.filename)
      (fun _ _ => trivial) (some actualSize) (does_open_recording settled_true fun _ => rfl))
      fun actualHash => ?_
    have hseen : ∀ s : World θ, (actualHash ≠ [] → Sees t (.recording filename.filename)
        filename.filename (fun _ => False) false (fun f => True ∧ sha256 f.content = actualHash ∧
          ∀ size ∈ some actualSize, f.size = size) s) →
        actualHash ≠ [] → Sees t (.recording filename.filename) filename.filename
          (fun _ => False) false (fun f => sha256 f.content = actualHash ∧ f.size = actualSize) s :=
      fun s h hne => (h hne).imp fun f hq => ⟨hq.2.1, hq.2.2 actualSize rfl⟩
    have htold : ∀ m, Settled t fun s => Tells sha256 filename.filename actualHash actualSize m s :=
      fun m => lasting_tells.settled t
    split
    · rename_i heq
      subst heq
      refine does_bind (R := fun m s => Tells sha256 filename.filename actualHash actualSize m s ∧
          Recorded sha256 t filename.filename actualHash s)
        (does_conseq does_timeTold hseen fun m s h => ⟨h.1, h.2 fun _ => rfl⟩) fun m => ?_
      refine does_bind (does_now ((htold m).and settled_recorded)) fun now => ?_
      refine does_bind (does_upsertFile ((htold m).and settled_recorded) fun s h => h.1)
        fun _ => ?_
      exact does_pure (fun s s' hc h hb => settled_recorded s s' hc (h hb)) fun s h _ => h.2
    · refine does_bind (R := Tells sha256 filename.filename actualHash actualSize)
        (does_conseq does_timeTold hseen fun m s h => h.1) fun m => ?_
      have hstore : ∀ verifiedAt, Does sha256 t
          (Tells sha256 filename.filename actualHash actualSize m) (do
            HashEngine.upsertFile ⟨filename, actualHash, actualSize, m, verifiedAt⟩
            return false) fun b s => b = true → Recorded sha256 t filename.filename hash s :=
        fun verifiedAt => does_bind (does_upsertFile (htold m) fun s h => h) fun _ => hfalse
      split
      · exact hstore 0
      · exact does_bind (does_now (htold m)) hstore

/-- The duplicate that a search returns can be recorded. -/
abbrev FoundRecorded (sha256 : ByteString → ByteString) (t : θ) (hash : ByteString)
    (r : Option ByteString) (s : World θ) : Prop :=
  ∀ filename ∈ r, Recorded sha256 t filename.filename hash s

omit [DecidableEq θ] in
theorem settled_found (r : Option ByteString) :
    Settled (θ := θ) t (FoundRecorded sha256 t hash r) :=
  fun s s' hc h filename hr => settled_recorded s s' hc (h filename hr)

theorem does_foundNone : Does sha256 t P (pure none) (FoundRecorded sha256 t hash) :=
  does_pure (settled_found none) fun _ _ _ h => by cases h

theorem does_verifyRecords (records : List FileInventoryRecord) :
    Does sha256 t (fun _ => True) (verifyRecords hash records) (FoundRecorded sha256 t hash) := by
  induction records with
  | nil => exact does_foundNone
  | cons record rest ih =>
    refine does_bind (does_verifyInventoryRecord record.sizeBytes) fun b => ?_
    cases b with
    | true =>
      exact does_pure (settled_found _) fun s h filename hr => by cases hr; exact h rfl
    | false => exact does_conseq ih (fun _ _ => trivial) fun _ _ h => h

/-- **`findVerifiedDuplicate`.** -/
theorem does_findVerifiedDuplicate (fuel : Nat) (afterFilename : ByteString) :
    Does sha256 t (fun _ => True) (Preflight.findVerifiedDuplicate hash fuel afterFilename)
      (FoundRecorded sha256 t hash) := by
  induction fuel generalizing afterFilename with
  | zero => exact does_foundNone
  | succ fuel ih =>
    refine does_bind (does_query (c := .findByHash _ _) settled_true rfl) fun records => ?_
    split
    · exact does_foundNone
    · refine does_bind (does_verifyRecords records) fun r => ?_
      cases r with
      | some filename => exact does_pure (settled_found _) fun s h => h
      | none => exact does_conseq (ih _) (fun _ _ => trivial) fun _ _ h => h

theorem does_sizeStored : Does sha256 t (Recorded sha256 t name hash) (fileSize .stored name)
    fun size s => hash ≠ [] → Sees t (.recording name) name (fun _ => False) false
      (fun f => sha256 f.content = hash ∧ f.size = size.getD 0) s := by
  refine does_file (c := .fileSize .stored name) settled_recorded (fun size s s' hc h hne =>
    Watches.settled (watches_recording t name) (fun _ _ => trivial) s s' hc (h hne)) ?_
  intro s d _ hallowed h hne
  obtain ⟨hh, hex | ⟨f, hf, hq, -⟩⟩ := h hne
  · exact hex.elim
  · refine ⟨?_, .inr ⟨f, hf, ⟨hq, ?_⟩, fun h => by cases h⟩⟩
    · exact (congrArg (fun w => World.hold w t) (setHold_self (s := s))).trans hh
    · simp only [performFile, hallowed.2 rfl, hf]
      rfl

/-- **`storeHash`** of a file whose hash was taken in the same period. -/
theorem does_storeHash : Does sha256 t (Recorded sha256 t filename.filename hash)
    (storeHash hash filename) Anything := by
  unfold storeHash
  simp only
  split
  · exact does_pure settled_true fun _ _ => trivial
  · refine does_bind does_sizeStored fun size => ?_
    refine does_bind (R := Tells sha256 filename.filename hash (size.getD 0))
      (does_conseq does_timeTold (fun _ h => h) fun _ _ h => h.1) fun m => ?_
    have htold := (@lasting_tells θ sha256 filename.filename hash (size.getD 0) m).settled t
    refine does_bind (does_now htold) fun now => ?_
    exact does_conseq (does_upsertFile htold fun s h => h) (fun _ h => h) fun _ _ _ => trivial

theorem does_storeDuplicate (removed : Bool) : Does sha256 t
    (Recorded sha256 t filename.filename hash) (storeDuplicate removed hash filename) Anything := by
  cases removed with
  | true => exact does_storeHash
  | false => exact does_pure settled_true fun _ _ => trivial

theorem does_publishAndStore (hP : Settled t P) (name : PlainName) :
    Does sha256 t P (publishAndStore name hash) Anything := by
  refine does_bind (R := fun b s => b = true → Recorded sha256 t name.1 hash s)
    (does_file (c := .publish name.1 hash) hP
      (fun b s s' hc h hb => settled_recorded s s' hc (h hb)) ?_) fun b => ?_
  · intro s d _ _ _
    simp only [performFile]
    split
    · rename_i h
      refine fun _ _ => ⟨Function.update_self .., .inr ⟨d.published, ?_, h.2.2,
        fun h => by cases h⟩⟩
      exact file_push_self
    · exact fun h => by cases h
  · cases b with
    | true =>
      refine does_conseq (P := Recorded sha256 t name.1.filename hash) does_storeHash
        (fun s h => ?_) fun _ _ h => h
      rw [name.2]
      exact h rfl
    | false => exact does_pure settled_true fun _ _ => trivial

theorem does_finalDuplicate (fuel : Nat) (skipExactDuplicates : Bool) :
    Does sha256 t P (finalDuplicate fuel hash skipExactDuplicates)
      (FoundRecorded sha256 t hash) := by
  unfold finalDuplicate
  split
  · exact does_conseq (does_findVerifiedDuplicate fuel []) (fun _ _ => trivial) fun _ _ h => h
  · exact does_foundNone

/-- **The finalization** of an upload. -/
theorem does_finalize (fuel : Nat) (upload : FinishedUpload) :
    Does sha256 t (fun _ => True) (finalize fuel upload) Anything := by
  have hduplicate : ∀ {r : Option ByteString} {name : ByteString}, r = some name →
      Does sha256 t (FoundRecorded sha256 t upload.fullHash r)
        (storeDuplicate upload.removed upload.fullHash name) Anything := fun hr =>
    does_conseq (does_storeDuplicate _) (fun s h => h _ hr) fun _ _ h => h
  refine does_bind (does_status (lasting_const True)) fun status => ?_
  split
  · refine does_bind (R := fun existing => Recorded sha256 t upload.finalName.1 existing) ?_
      fun existing => ?_
    · unfold existingHash
      split
      · refine does_conseq (does_computeFileHash (watches_recording t upload.finalName.1)
          (fun _ _ => trivial) none (does_open_recording settled_true fun _ => rfl))
          (fun _ h => h) fun hash s h hne => (h hne).imp fun f hq => hq.2.1
      · exact does_pure settled_recorded fun _ _ hne => absurd rfl hne
    · split
      · rename_i hsame
        refine does_conseq (does_storeDuplicate _) (fun s h => ?_) fun _ _ h => h
        rw [upload.finalName.2, ← hsame.2.2]
        exact h
      · refine does_bind (does_finalDuplicate fuel _) fun r => ?_
        cases r with
        | some name => exact hduplicate rfl
        | none =>
          simp only
          split
          · exact does_publishAndStore (settled_found none) _
          · exact does_pure settled_true fun _ _ => trivial
  · refine does_bind (does_finalDuplicate fuel _) fun r => ?_
    cases r with
    | some name => exact hduplicate rfl
    | none => exact does_publishAndStore (settled_found none) _

end Records

/-! ## Reconciliation and indexing -/

section Reconciliation

variable {α β : Type} {P : World θ → Prop}

theorem does_run_bind {R : α → World θ → Prop} {p : OptionT InventoryProg α}
    {f : α → OptionT InventoryProg β} (h : Does sha256 t P p.run fun r s => ∀ a ∈ r, R a s)
    (hf : ∀ a, Does sha256 t (R a) (f a).run Anything) :
    Does sha256 t P (p >>= f).run Anything := by
  refine does_bind h fun r => ?_
  cases r with
  | none => exact does_pure settled_true fun _ _ => trivial
  | some a => exact does_conseq (hf a) (fun s h => h a rfl) fun _ _ h => h

theorem does_run_lift {R : α → World θ → Prop} {p : InventoryProg α}
    (hR : ∀ a, Settled t (R a)) (h : Does sha256 t P p R) :
    Does sha256 t P (liftM p : OptionT InventoryProg α).run fun r s => ∀ a ∈ r, R a s :=
  does_bind h fun a => does_pure (fun s s' hc h b hb => by cases hb; exact hR a s s' hc (h a rfl))
    fun s h b hb => by cases hb; exact h

theorem does_run_pure (a : α) : Does sha256 t P (pure a : OptionT InventoryProg α).run Anything :=
  does_pure settled_true fun _ _ => trivial

theorem does_run_any {p : OptionT InventoryProg α} (h : Does sha256 t P p.run Anything) :
    Does sha256 t P p.run fun r s => ∀ a ∈ r, Anything a s :=
  does_conseq h (fun _ h => h) fun _ _ _ _ _ => trivial

/-- What is known of a row that was looked up. -/
abbrev RowTold (sha256 : ByteString → ByteString) (name : ByteString)
    (known : Option FileInventoryRecord) (s : World θ) : Prop :=
  ∀ row ∈ known, row.filename = name ∧ Told sha256 s row

theorem does_lookup (name : ByteString) : Does sha256 t (fun _ => True) (lookup name).run
    fun r s => ∀ known ∈ r, RowTold sha256 name known s := by
  refine does_conseq (does_db (c := .lookup name) (R := fun x s => ∀ known, x = some known →
      RowTold sha256 name known s) settled_true (fun x s s' hc h known hx row hrow =>
      ⟨(h known hx row hrow).1, lasting_tells.settled t s s' hc (h known hx row hrow).2⟩)
    (fun _ _ _ _ h => by cases h) fun s fault hinv _ known hx row hrow => ?_)
    (fun _ h => h) fun r s h => h.2
  cases fault with
  | true => cases hx
  | false =>
    obtain rfl := Option.some.inj hx
    obtain ⟨hmem, hname⟩ := SortedTable.lookup_eq_some.mp (Option.mem_def.mp hrow)
    refine ⟨hname, ?_⟩
    unfold Database.current at hmem
    cases hw : s.database.working with
    | none =>
      rw [hw] at hmem
      exact hinv.files row hmem
    | some working =>
      rw [hw] at hmem
      exact hinv.working working hw row hmem

omit [DecidableEq θ] in
theorem reconciledRecord_told {name : ByteString} {sizeBytes : Nat} {modifiedTime : Int}
    {known : Option FileInventoryRecord} {s : World θ} (h : RowTold sha256 name known s) :
    Told sha256 s (reconciledRecord name sizeBytes modifiedTime known) := by
  cases known with
  | none => exact fun hne => absurd rfl hne
  | some row =>
    unfold reconciledRecord
    simp only
    split
    · rename_i hsame
      simp only [Bool.and_eq_true, beq_iff_eq] at hsame
      obtain ⟨rfl, rfl⟩ := hsame
      obtain ⟨rfl, htold⟩ := h row rfl
      exact htold
    · exact fun hne => absurd rfl hne

theorem does_reconcileEntry (name : ByteString) :
    Does sha256 t (fun _ => True) (reconcileEntry name).run Anything := by
  refine does_run_bind (does_run_lift (fun _ => settled_true)
    (does_status (lasting_const True))) fun status => ?_
  split
  · refine does_run_bind (does_run_lift (fun _ => settled_true) (does_lasting
      (c := .fileSize .reconcile name) (lasting_const True) fun _ _ => rfl)) fun size => ?_
    cases size with
    | none => exact does_run_pure ()
    | some sizeBytes =>
      refine does_run_bind (does_run_lift (fun _ => settled_true) (does_lasting
        (c := .lastWriteTime .reconcile name) (lasting_const True) fun _ _ => rfl)) fun m => ?_
      refine does_run_bind (does_lookup name) fun known => ?_
      have hsettled : Settled t (RowTold (θ := θ) sha256 name known) :=
        fun s s' hc h row hrow =>
          ⟨(h row hrow).1, lasting_tells.settled t s s' hc (h row hrow).2⟩
      refine does_conseq (does_db (c := .upsert (reconciledRecord name sizeBytes m known))
        (R := Anything) hsettled (fun _ => settled_true) (fun s _ h r hr => ?_)
        fun _ _ _ _ => trivial) (fun _ h => h) fun _ _ _ => trivial
      cases hr
      exact reconciledRecord_told h
  · exact does_run_pure ()

theorem does_reconcileEntries (names : List ByteString) :
    Does sha256 t (fun _ => True) (reconcileEntries names).run Anything := by
  induction names with
  | nil => exact does_run_pure ()
  | cons name rest ih =>
    exact does_run_bind (does_run_any (does_reconcileEntry name)) fun _ => ih

theorem does_nextName : Does sha256 t (fun _ => True) nextName.run Anything :=
  does_query (c := .nextName) settled_true rfl

theorem does_reconcileRow (filename : ByteString) :
    Does sha256 t (fun _ => True) (reconcileRow filename).run Anything := by
  refine does_run_bind (does_run_any does_nextName) fun _ => ?_
  refine does_run_bind (does_run_lift (fun _ => settled_true)
    (does_status (lasting_const True))) fun status => ?_
  split
  · exact does_query (c := .remove filename) settled_true rfl
  · exact does_run_pure ()

theorem does_reconcileRows (names : List ByteString) :
    Does sha256 t (fun _ => True) (reconcileRows names).run Anything := by
  induction names with
  | nil => exact does_nextName
  | cons filename rest ih =>
    exact does_run_bind (does_run_any (does_reconcileRow filename)) fun _ => ih

theorem does_prepare : Does sha256 t (fun _ => True) prepare.run Anything :=
  does_query (c := .prepare) settled_true rfl

theorem does_reconcileTable : Does sha256 t (fun _ => True) reconcileTable.run Anything := by
  refine does_run_bind (does_run_any does_prepare) fun _ => ?_
  refine does_run_bind (does_run_any does_prepare) fun _ => ?_
  refine does_run_bind (does_run_any (p := allNames)
    (does_query (c := .allNames) settled_true rfl)) fun names => ?_
  refine does_run_bind (does_run_any (does_reconcileRows names)) fun _ => ?_
  exact does_query (c := .commit) settled_true rfl

theorem does_reconcileTransaction :
    Does sha256 t (fun _ => True) reconcileTransaction.run Anything := by
  refine does_run_bind (does_run_any (p := beginTransaction)
    (does_query (c := .begin) settled_true rfl)) fun _ => ?_
  refine does_run_bind (does_run_any does_prepare) fun _ => ?_
  refine does_run_bind (does_run_any does_prepare) fun _ => ?_
  refine does_run_bind (does_run_lift (fun _ => settled_true) (does_lasting
    (c := .listDirectory) (lasting_const True) fun _ _ => rfl)) fun listing => ?_
  obtain ⟨entries, failed⟩ := listing
  refine does_run_bind (does_run_any (does_reconcileEntries entries)) fun _ => ?_
  split
  · exact does_pure settled_true fun _ _ => trivial
  · exact does_reconcileTable

/-- **`reconcileDirectory`.** -/
theorem does_reconcileDirectory :
    Does sha256 t (fun _ => True) reconcileDirectory Anything := by
  refine does_bind (does_query (c := .requireHealthy) settled_true rfl) fun healthy => ?_
  cases healthy with
  | none => exact does_pure settled_true fun _ _ => trivial
  | some _ =>
    refine does_bind does_reconcileTransaction fun r => ?_
    cases r with
    | some _ => exact does_pure settled_true fun _ _ => trivial
    | none =>
      refine does_bind (does_query (c := .rollback) settled_true rfl) fun _ => ?_
      refine does_bind (does_query (c := .markUnhealthy) settled_true rfl) fun _ => ?_
      exact does_pure settled_true fun _ _ => trivial

theorem does_indexRecord (record : FileInventoryRecord) :
    Does sha256 t (fun _ => True) (indexRecord record) Anything := by
  have hdone : ∀ {P : World θ → Prop} (b : Bool), Does sha256 t P (pure b) Anything :=
    fun _ => does_pure settled_true fun _ _ => trivial
  refine does_bind (does_stop settled_true) fun stop => ?_
  split
  · exact hdone _
  refine does_bind (does_status (lasting_const True)) fun status => ?_
  split
  · exact does_bind (does_query (c := .removeFile _) settled_true rfl) fun _ => hdone _
  refine does_bind (does_lasting (c := .fileSize .indexingBefore _) (lasting_const True)
    fun _ _ => rfl) fun beforeSize => ?_
  refine does_bind (does_timeBefore settled_true fun _ => rfl) fun beforeModified => ?_
  split
  · exact hdone _
  have hw := watches_verifying t record.filename.filename beforeModified
  refine does_bind (R := fun hash s => hash ≠ [] → Sees t (.verifying record.filename.filename)
      record.filename.filename (Excused record.filename.filename beforeModified) false
      (fun f => f.modifiedTime = beforeModified ∧ sha256 f.content = hash) s)
    (does_conseq (does_computeFileHash hw (fun _ h => h) none
      (does_open_verifying hw fun _ => rfl)) (fun _ h => h)
      fun hash s h hne => (h hne).imp fun f hq => ⟨hq.1, hq.2.1⟩) fun hash => ?_
  have hsettled : Settled t fun s => hash ≠ [] → Sees t (.verifying record.filename.filename)
      record.filename.filename (Excused record.filename.filename beforeModified) false
      (fun f => f.modifiedTime = beforeModified ∧ sha256 f.content = hash) s :=
    fun s s' hc h hne => hw.settled (fun f hq => hq.1) s s' hc (h hne)
  split
  · exact hdone _
  refine does_bind (does_stop hsettled) fun stop => ?_
  split
  · exact hdone _
  refine does_bind does_sizeAfter fun afterSize => ?_
  cases afterSize with
  | none =>
    exact does_bind (does_conseq (does_lasting (c := .lastWriteTime .indexingAfter _)
      (lasting_const True) fun _ _ => rfl) (fun _ _ => trivial) fun _ _ h => h) fun _ => hdone _
  | some size =>
    refine does_bind (does_conseq does_timeAfter (fun s h => h size rfl) fun _ _ h => h)
      fun afterModified => ?_
    have hafter := (Lasting.imp (θ := θ) (p := afterModified = beforeModified) fun _ =>
      @lasting_tells θ sha256 record.filename.filename hash size beforeModified).settled t
    simp only
    split
    · exact hdone _
    · rename_i hsame
      have htime : afterModified = beforeModified := by
        by_contra hne
        exact hsame (.inr hne)
      refine does_bind (does_now hafter) fun now => ?_
      refine does_bind (does_upsertFile hafter fun s h => ?_) fun _ => hdone _
      rw [htime]
      exact h htime

theorem does_indexRecords (records : List FileInventoryRecord) :
    Does sha256 t (fun _ => True) (indexRecords records) Anything := by
  induction records with
  | nil => exact does_pure settled_true fun _ _ => trivial
  | cons record rest ih =>
    refine does_bind (does_indexRecord record) fun b => ?_
    split
    · exact ih
    · exact does_pure settled_true fun _ _ => trivial

theorem does_indexPages (fuel : Nat) (afterFilename : ByteString) :
    Does sha256 t (fun _ => True) (indexPages fuel afterFilename) Anything := by
  induction fuel generalizing afterFilename with
  | zero => exact does_pure settled_true fun _ _ => trivial
  | succ fuel ih =>
    refine does_bind (does_stop settled_true) fun stop => ?_
    split
    · exact does_pure settled_true fun _ _ => trivial
    refine does_bind (does_query (c := .findUnhashedFiles _) settled_true rfl) fun records => ?_
    split
    · exact does_pure settled_true fun _ _ => trivial
    · refine does_bind (does_indexRecords records) fun b => ?_
      split
      · exact ih _
      · exact does_pure settled_true fun _ _ => trivial

/-- **`runBackgroundIndexing`.** -/
theorem does_runBackgroundIndexing (fuel passes : Nat) :
    Does sha256 t (fun _ => True) (runBackgroundIndexing fuel passes) Anything := by
  induction passes with
  | zero => exact does_pure settled_true fun _ _ => trivial
  | succ passes ih =>
    refine does_bind (does_stop settled_true) fun stop => ?_
    split
    · exact does_pure settled_true fun _ _ => trivial
    refine does_bind does_reconcileDirectory fun r => ?_
    cases r with
    | none => exact does_query (c := .markUnhealthy) settled_true rfl
    | some _ =>
      refine does_bind (does_indexPages fuel []) fun b => ?_
      split
      · exact ih
      · exact does_pure settled_true fun _ _ => trivial

end Reconciliation

/-- **Every writer** keeps the invariant and disturbs no other thread. -/
theorem does_program (w : Writer) :
    Does (θ := θ) sha256 t (fun _ => True) w.program Anything := by
  cases w with
  | reconcile =>
    exact does_bind does_reconcileDirectory fun _ => does_pure settled_true fun _ _ => trivial
  | backgroundIndexing fuel passes => exact does_runBackgroundIndexing fuel passes
  | preflight fuel env files =>
    refine does_conseq (does_verifyRequest fuel env files (some ∅)) (fun s _ => ?_) fun _ _ h => h
    intro cache hcache filename entry he
    cases hcache
    rw [AList.lookup_empty] at he
    cases he
  | isDuplicate fuel hash =>
    simp only [Writer.program]
    split
    · exact does_pure settled_true fun _ _ => trivial
    · exact does_bind (does_findVerifiedDuplicate fuel []) fun _ =>
        does_pure settled_true fun _ _ => trivial
  | finalize fuel upload => exact does_finalize fuel upload

end InventoryWriters

end LocalMediaTransfer
