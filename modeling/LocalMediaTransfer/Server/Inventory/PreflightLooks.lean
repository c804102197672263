import LocalMediaTransfer.Server.Inventory.Preflight

/-!
# What preflight verification looks at

The looks of `verifyPreflight` are what the destination answered (`Look.Shown`), its two flags and
its result are functions of the looks (`Scan.Kept`), and a candidate changes no row but its own.

* `verifyCandidate_spec`, `verifyCandidates_spec`, `verifyPages_spec`, `verifyPreflight_spec` — one
  specification for each level of the loop, for any destination, changing or not.
-/

set_option autoImplicit false

namespace LocalMediaTransfer

namespace Preflight

open Lib HashEngine

/-- A call to the destination and its answer. -/
def saw (c : FileCall) (x : c.Answer) : Lib.Event InventoryCalls := ⟨.inl c, x⟩

section Rules

variable {answers : (c : FileCall) → c.Answer → Prop} {d : Database}
  {events : List (Lib.Event InventoryCalls)}

theorem traced_file {c : FileCall}
    {Q : c.Answer → Database × List (Lib.Event InventoryCalls) → Prop}
    (h : ∀ x, answers c x → Q x (d, events ++ [saw c x])) :
    ∀ x s', Traced (Serves answers) (d, events) (.inl c) x s' → Q x s' := by
  rintro x ⟨d', events'⟩ ⟨⟨hx, hd⟩, he⟩
  obtain rfl : d' = d := hd
  obtain rfl : events' = events ++ [saw c x] := he
  exact h x hx

theorem traced_db {c : DbCall} {Q : c.Answer → Database × List (Lib.Event InventoryCalls) → Prop}
    (h : ∀ fault, Q (d.serve fault c).1 ((d.serve fault c).2,
      events ++ [⟨.inr c, (d.serve fault c).1⟩])) :
    ∀ x s', Traced (Serves answers) (d, events) (.inr c) x s' → Q x s' := by
  rintro x ⟨d', events'⟩ ⟨⟨fault, hd⟩, he⟩
  have h := h fault
  rw [hd] at h
  obtain rfl : events' = events ++ [⟨.inr c, x⟩] := he
  exact h

end Rules

/-! ## Looks -/

/-- The hash of a file with this size and modification time was computed, or it is cached. -/
def HashShown (hashCache : Option PreflightHashCache) (events : List (Lib.Event InventoryCalls))
    (filename : ByteString) (sizeBytes : Nat) (modifiedTime : Int) (hash : ByteString) : Prop :=
  hashCache.bind (fun cache => cache.lookup filename) = some ⟨sizeBytes, modifiedTime, hash⟩ ∨
  [saw (.fileSize .preflightBefore filename.filename) (some sizeBytes),
    saw (.lastWriteTime .preflightBefore filename.filename) modifiedTime,
    saw (.streamHash filename.filename sizeBytes) hash].Sublist events

/-- No hash of the file could be computed. -/
def UnreadableShown (events : List (Lib.Event InventoryCalls)) (name : ByteString)
    (sizeBytes : Nat) : Prop :=
  saw (.openFile .preflight name) false ∈ events ∨
  (∃ x, x ≠ some sizeBytes ∧ saw (.fileSize .hashing name) x ∈ events) ∨
  saw (.streamHash name sizeBytes) [] ∈ events

/-- The destination gave the answers that the look reports. -/
def Look.Shown (look : Look) (q : PreflightQuery) (hashCache : Option PreflightHashCache)
    (events : List (Lib.Event InventoryCalls)) : Prop :=
  let name := look.filename.filename
  [saw (.status name) .regular,
    saw (.fileSize .preflightBefore name) (some look.sizeBytes)].Sublist events ∧
  match look.verdict with
  | .otherSize => look.sizeBytes ≠ q.sizeBytes
  | .settled => look.sizeBytes = q.sizeBytes
  | .unreadable => look.sizeBytes = q.sizeBytes ∧ UnreadableShown events name look.sizeBytes
  | .changed => look.sizeBytes = q.sizeBytes ∧
      ((∃ x, x ≠ some look.sizeBytes ∧ saw (.fileSize .preflightAfter name) x ∈ events) ∨
        ∃ before after, after ≠ before ∧
          saw (.lastWriteTime .preflightBefore name) before ∈ events ∧
          saw (.lastWriteTime .preflightAfter name) after ∈ events)
  | .hashed modifiedTime hash => look.sizeBytes = q.sizeBytes ∧
      [saw (.status name) .regular,
        saw (.fileSize .preflightBefore name) (some look.sizeBytes),
        saw (.lastWriteTime .preflightBefore name) modifiedTime,
        saw (.fileSize .preflightAfter name) (some look.sizeBytes),
        saw (.lastWriteTime .preflightAfter name) modifiedTime].Sublist events ∧
      HashShown hashCache events look.filename look.sizeBytes modifiedTime hash

/-- The look found the requested hash. -/
def Look.matched (look : Look) (q : PreflightQuery) : Bool :=
  match look.verdict with
  | .hashed _ hash => hash == q.sha256
  | _ => false

/-- The file could not be hashed or changed. -/
def Look.failed (look : Look) : Bool :=
  match look.verdict with
  | .unreadable => true
  | .changed => true
  | _ => false

/-- The look raises `sameNameConflict`. -/
def Look.conflicts (look : Look) (q : PreflightQuery) : Bool :=
  look.filename == q.safeName &&
    match look.verdict with
    | .otherSize => true
    | .settled => false
    | .hashed _ hash => look.storedHash != q.sha256 || hash != q.sha256
    | _ => look.storedHash != q.sha256

/-- Every cached hash was there before the call or has been computed in it. -/
def CacheShown (before after : Option PreflightHashCache)
    (events : List (Lib.Event InventoryCalls)) : Prop :=
  ∀ filename entry, after.bind (fun cache => cache.lookup filename) = some entry →
    HashShown before events filename entry.sizeBytes entry.modifiedTime entry.sha256

/-- What holds of the local variables all along: the flags tell of the looks, and the looks are
what the destination answered. -/
structure Scan.Kept (scan : Scan) (q : PreflightQuery) (hashCache : Option PreflightHashCache)
    (events : List (Lib.Event InventoryCalls)) : Prop where
  conflict : scan.sameNameConflict = scan.looks.any fun look => look.conflicts q
  inconclusive : scan.inconclusive = scan.looks.any Look.failed
  shown : ∀ look ∈ scan.looks, look.Shown q hashCache events
  cache : CacheShown hashCache scan.hashCache events

section Mono

variable {events events' : List (Lib.Event InventoryCalls)} {hashCache : Option PreflightHashCache}

theorem HashShown.mono {filename hash : ByteString} {sizeBytes : Nat} {modifiedTime : Int}
    (h : HashShown hashCache events filename sizeBytes modifiedTime hash)
    (hsub : events.Sublist events') :
    HashShown hashCache events' filename sizeBytes modifiedTime hash :=
  h.imp_right fun h => h.trans hsub

theorem UnreadableShown.mono {name : ByteString} {sizeBytes : Nat}
    (h : UnreadableShown events name sizeBytes) (hsub : events.Sublist events') :
    UnreadableShown events' name sizeBytes := by
  rcases h with h | ⟨x, hx, h⟩ | h
  · exact .inl (hsub.subset h)
  · exact .inr (.inl ⟨x, hx, hsub.subset h⟩)
  · exact .inr (.inr (hsub.subset h))

theorem Look.Shown.mono {look : Look} {q : PreflightQuery} (h : look.Shown q hashCache events)
    (hsub : events.Sublist events') : look.Shown q hashCache events' := by
  obtain ⟨filename, storedHash, sizeBytes, verdict⟩ := look
  obtain ⟨hseen, h⟩ := h
  refine ⟨hseen.trans hsub, ?_⟩
  cases verdict with
  | otherSize => exact h
  | settled => exact h
  | unreadable => exact ⟨h.1, h.2.mono hsub⟩
  | changed =>
    obtain ⟨hsize, ⟨x, hx, h⟩ | ⟨before, after, hne, hb, ha⟩⟩ := h
    · exact ⟨hsize, .inl ⟨x, hx, hsub.subset h⟩⟩
    · exact ⟨hsize, .inr ⟨before, after, hne, hsub.subset hb, hsub.subset ha⟩⟩
  | hashed modifiedTime hash => exact ⟨h.1, h.2.1.trans hsub, h.2.2.mono hsub⟩

theorem Scan.Kept.mono {scan : Scan} {q : PreflightQuery} (h : scan.Kept q hashCache events)
    (hsub : events.Sublist events') : scan.Kept q hashCache events' where
  conflict := h.conflict
  inconclusive := h.inconclusive
  shown look hl := (h.shown look hl).mono hsub
  cache filename entry he := (h.cache filename entry he).mono hsub

theorem Scan.Kept.start (q : PreflightQuery) (hashCache : Option PreflightHashCache) :
    (Scan.start hashCache).Kept q hashCache [] where
  conflict := rfl
  inconclusive := rfl
  shown := by simp [Scan.start]
  cache filename entry he := .inl he

/-- One more look, with its flags and the cache after it. -/
theorem Scan.Kept.look {scan scan' : Scan} {q : PreflightQuery} {look : Look}
    (h : scan.Kept q hashCache events) (hlooks : scan'.looks = scan.looks ++ [look])
    (hconflict : scan'.sameNameConflict = (scan.sameNameConflict || look.conflicts q))
    (hinconclusive : scan'.inconclusive = (scan.inconclusive || look.failed))
    (hshown : look.Shown q hashCache events)
    (hcache : CacheShown hashCache scan'.hashCache events) : scan'.Kept q hashCache events where
  conflict := by simp [hlooks, hconflict, h.conflict]
  inconclusive := by simp [hlooks, hinconclusive, h.inconclusive]
  shown l hl := by
    rw [hlooks, List.mem_append] at hl
    rcases hl with hl | hl
    · exact h.shown l hl
    · rw [List.mem_singleton.mp hl]
      exact hshown
  cache := hcache

end Mono

/-! ## Hashing -/

theorem lookup_rememberHash {hashCache : Option PreflightHashCache}
    {filename filename' : ByteString}
    {entry entry' : PreflightHashCacheEntry}
    (h : (rememberHash hashCache filename entry).bind (fun cache => cache.lookup filename') =
      some entry') :
    (filename' = filename ∧ entry' = entry) ∨
      hashCache.bind (fun cache => cache.lookup filename') = some entry' := by
  cases hashCache with
  | none => simp [rememberHash] at h
  | some cache =>
    simp only [rememberHash, Option.map_some, Option.bind_some] at h ⊢
    by_cases hf : filename' = filename
    · subst hf
      rw [AList.lookup_insert] at h
      exact .inl ⟨rfl, (Option.some.inj h).symm⟩
    · rw [AList.lookup_insert_ne hf] at h
      split at h
      · simp at h
      · exact .inr h

theorem cachedHash_spec {hashCache : Option PreflightHashCache} {filename : ByteString}
    {sizeBytes : Nat} {modifiedTime : Int}
    (h : cachedHash hashCache filename sizeBytes modifiedTime ≠ []) :
    hashCache.bind (fun cache => cache.lookup filename) =
      some ⟨sizeBytes, modifiedTime, cachedHash hashCache filename sizeBytes modifiedTime⟩ := by
  unfold cachedHash at h ⊢
  split at h <;> rename_i hc
  · split at h
    · rename_i cached hs
      obtain ⟨rfl, rfl⟩ := hs
      simp only [hc, and_self, if_true]
    · exact absurd rfl h
  · exact absurd rfl h

theorem computeFileHash_spec {answers : (c : FileCall) → c.Answer → Prop} {d : Database}
    {events : List (Lib.Event InventoryCalls)} {name : ByteString} {sizeBytes : Nat} :
    wp (Traced (Serves answers)) (HashEngine.computeFileHash .preflight name (some sizeBytes))
      (fun hash s' => s'.1 = d ∧ ∃ more, s'.2 = events ++ more ∧
        (hash = [] → UnreadableShown more name sizeBytes) ∧
        (hash ≠ [] → saw (.streamHash name sizeBytes) hash ∈ more)) (d, events) := by
  unfold HashEngine.computeFileHash
  simp only [wp_bind, wp_openFile]
  refine traced_file (c := .openFile .preflight name) fun opened _ => ?_
  cases opened with
  | false =>
    simp only [Bool.not_false, if_true, wp_pure]
    exact ⟨trivial, _, rfl, fun _ => .inl (by simp), fun h => absurd rfl h⟩
  | true =>
    simp only [Bool.not_true, Bool.false_eq_true, if_false, wp_bind, wp_fileSize]
    refine traced_file (c := .fileSize .hashing name) fun size _ => ?_
    have hother (h : size ≠ some sizeBytes) : UnreadableShown
        ([saw (.openFile .preflight name) true] ++ [saw (.fileSize .hashing name) size])
        name sizeBytes := .inr (.inl ⟨size, h, by simp⟩)
    cases size with
    | none =>
      simp only [wp_pure]
      exact ⟨trivial, _, List.append_assoc _ _ _, fun _ => hother (by simp), fun h => absurd rfl h⟩
    | some size =>
      simp only [Option.any_some, bne_iff_ne, ne_eq, ite_not, Option.getD_some]
      split
      · rename_i heq
        subst heq
        simp only [wp_computeStreamHash]
        refine traced_file (c := .streamHash name size) fun hash _ => ?_
        refine ⟨rfl, _, by simp only [List.append_assoc]; rfl, fun h => ?_, fun _ => by simp⟩
        obtain rfl : hash = [] := h
        exact .inr (.inr (by simp))
      · rename_i hne
        simp only [wp_pure]
        exact ⟨trivial, _, List.append_assoc _ _ _, fun _ => hother (by simpa using hne), by simp⟩

/-- What `candidateHash` returns is shown: a hash that is cached or has been computed, or nothing
because the file could not be read. -/
theorem candidateHash_spec {answers : (c : FileCall) → c.Answer → Prop} {d : Database}
    {events : List (Lib.Event InventoryCalls)} {before hashCache : Option PreflightHashCache}
    {filename : ByteString} {sizeBytes : Nat} {modifiedTime : Int}
    (hcache : CacheShown before hashCache events)
    (hseen : [saw (.fileSize .preflightBefore filename.filename) (some sizeBytes),
      saw (.lastWriteTime .preflightBefore filename.filename) modifiedTime].Sublist events) :
    wp (Traced (Serves answers)) (candidateHash hashCache filename sizeBytes modifiedTime)
      (fun r s' => s'.1 = d ∧ ∃ more, s'.2 = events ++ more ∧ CacheShown before r.2 s'.2 ∧
        (r.1 = [] → UnreadableShown s'.2 filename.filename sizeBytes) ∧
        (r.1 ≠ [] → HashShown before s'.2 filename sizeBytes modifiedTime r.1)) (d, events) := by
  unfold candidateHash
  simp only [Bool.not_eq_true', List.isEmpty_eq_false_iff]
  split
  · rename_i hne
    simp only [wp_pure]
    exact ⟨trivial, [], (List.append_nil _).symm, hcache, fun h => absurd h hne, fun _ =>
      .mono (hcache filename _ (cachedHash_spec hne)) (List.Sublist.refl _)⟩
  · rw [wp_bind]
    refine wp_mono computeFileHash_spec ?_
    rintro hash ⟨d', events'⟩ ⟨hd, more, he, hempty, hcomputed⟩
    obtain rfl : d' = d := hd
    obtain rfl : events' = events ++ more := he
    have hsub : events.Sublist (events ++ more) := List.sublist_append_left _ _
    split <;> rename_i hnil <;> simp only [wp_pure]
    · obtain rfl : hash = [] := by simpa using hnil
      exact ⟨trivial, more, rfl, fun f e h => (hcache f e h).mono hsub,
        fun _ => (hempty rfl).mono (List.sublist_append_right _ _), fun h => absurd rfl h⟩
    · have hne : hash ≠ [] := by simpa using hnil
      have hshown : HashShown before (events ++ more) filename sizeBytes modifiedTime hash :=
        .inr (hseen.append (List.singleton_sublist.mpr (hcomputed hne)))
      refine ⟨trivial, more, rfl, fun f e h => ?_, fun h => absurd h hne, fun _ => hshown⟩
      rcases lookup_rememberHash h with ⟨rfl, rfl⟩ | h
      · exact hshown
      · exact (hcache f e h).mono hsub

/-! ## Candidates -/

/-- Only the row of `filename` may differ. -/
def OnlyRow (filename : ByteString) (d d' : Database) : Prop :=
  d'.working = none ∧ (∀ r : FileInventoryRecord, r.filename ≠ filename →
    (r ∈ d'.files ↔ r ∈ d.files))

theorem OnlyRow.refl {filename : ByteString} {d : Database} (h : d.working = none) :
    OnlyRow filename d d := ⟨h, fun _ _ => Iff.rfl⟩

theorem onlyRow_removeFile {filename : ByteString} {d : Database} (h : d.working = none)
    (fault : Bool) : OnlyRow filename d (d.serve fault (.removeFile filename)).2 := by
  refine ⟨by simp [Database.serve, Database.modify, h], fun r hr => ?_⟩
  simp only [Database.serve, Database.modify, h, Inventory.removeFile]
  split
  · exact Iff.rfl
  · simp [hr]

theorem onlyRow_upsertFile (record : FileInventoryRecord) {d : Database} (h : d.working = none)
    (fault : Bool) : OnlyRow record.filename d (d.serve fault (.upsertFile record)).2 := by
  refine ⟨by simp [Database.serve, Database.modify, h], fun r hr => ?_⟩
  simp only [Database.serve, Database.modify, h, Inventory.upsertFile]
  split
  · exact Iff.rfl
  · rw [SortedTable.mem_upsert]
    constructor
    · rintro (rfl | ⟨hr', -⟩)
      · exact absurd rfl hr
      · exact hr'
    · exact fun hr' => .inr ⟨hr', hr⟩

/-- What a candidate comes to: nothing was looked at, or there is one more look, which decides
whether the call returns. -/
structure CandidateSpec (q : PreflightQuery) (before : Option PreflightHashCache)
    (candidate : FileInventoryRecord) (d : Database) (events : List (Lib.Event InventoryCalls))
    (scan : Scan) (r : Bool × Scan) (s' : Database × List (Lib.Event InventoryCalls)) : Prop where
  onlyRow : OnlyRow candidate.filename d s'.1
  events : events.Sublist s'.2
  kept : r.2.Kept q before s'.2
  looks : (r.1 = false ∧ r.2.looks = scan.looks) ∨ ∃ look : Look,
    r.2.looks = scan.looks ++ [look] ∧ look.filename = candidate.filename ∧
    r.1 = look.matched q

theorem CandidateSpec.unseen {q : PreflightQuery} {before : Option PreflightHashCache}
    {candidate : FileInventoryRecord} {d d' : Database}
    {events events' : List (Lib.Event InventoryCalls)}
    {scan : Scan} (hkept : scan.Kept q before events) (hrow : OnlyRow candidate.filename d d')
    (hsub : events.Sublist events') :
    CandidateSpec q before candidate d events scan (false, scan) (d', events') :=
  ⟨hrow, hsub, hkept.mono hsub, .inl ⟨rfl, rfl⟩⟩

theorem CandidateSpec.look {q : PreflightQuery} {before : Option PreflightHashCache}
    {candidate : FileInventoryRecord} {d d' : Database}
    {events events' : List (Lib.Event InventoryCalls)}
    {scan : Scan} (look : Look) {r : Bool × Scan} (hkept : scan.Kept q before events)
    (hrow : OnlyRow candidate.filename d d') (hsub : events.Sublist events')
    (hlooks : r.2.looks = scan.looks ++ [look]) (hname : look.filename = candidate.filename)
    (hconflict : r.2.sameNameConflict = (scan.sameNameConflict || look.conflicts q))
    (hinconclusive : r.2.inconclusive = (scan.inconclusive || look.failed))
    (hmatched : r.1 = look.matched q) (hshown : look.Shown q before events')
    (hcache : CacheShown before r.2.hashCache events') :
    CandidateSpec q before candidate d events scan r (d', events') :=
  ⟨hrow, hsub, (hkept.mono hsub).look hlooks hconflict hinconclusive hshown hcache,
    .inr ⟨look, hlooks, hname, hmatched⟩⟩

theorem onlyRow_upsert {d : Database} (h : d.working = none) {filename hash : ByteString}
    {sizeBytes : Nat} {modifiedTime verifiedAt : Int} (fault : Bool) : OnlyRow filename d
      (d.serve fault (.upsertFile ⟨filename, hash, sizeBytes, modifiedTime, verifiedAt⟩)).2 :=
  onlyRow_upsertFile ⟨filename, hash, sizeBytes, modifiedTime, verifiedAt⟩ h fault

/-- The variables at a file of the requested size, before its look is entered. -/
structure Flagged (q : PreflightQuery) (candidate : FileInventoryRecord) (scan scan' : Scan) :
    Prop where
  looks : scan'.looks = scan.looks
  inconclusive : scan'.inconclusive = scan.inconclusive
  conflict : scan'.sameNameConflict = (scan.sameNameConflict ||
    (candidate.filename == q.safeName && candidate.sha256 != q.sha256))

section Candidate

variable {answers : (c : FileCall) → c.Answer → Prop} {d : Database}
  {events : List (Lib.Event InventoryCalls)} {q : PreflightQuery}
  {before : Option PreflightHashCache} {candidate : FileInventoryRecord} {scan scan' : Scan}

theorem recheckCandidate_spec (scan : Scan) {modifiedTime : Int} {hash : ByteString}
    (hidle : d.working = none)
    (hkept : scan.Kept q before events) (hflagged : Flagged q candidate scan scan')
    (hcache : CacheShown before scan'.hashCache events)
    (hseen : [saw (.status candidate.filename.filename) .regular,
      saw (.fileSize .preflightBefore candidate.filename.filename) (some q.sizeBytes),
      saw (.lastWriteTime .preflightBefore candidate.filename.filename) modifiedTime].Sublist
        events)
    (hhash : HashShown before events candidate.filename q.sizeBytes modifiedTime hash) :
    wp (Traced (Serves answers)) (recheckCandidate q candidate q.sizeBytes modifiedTime hash scan')
      (CandidateSpec q before candidate d events scan) (d, events) := by
  have hregular := (List.take_sublist 2 _).trans hseen
  unfold recheckCandidate
  simp only [wp_bind, wp_fileSize, wp_fileModifiedTime]
  refine traced_file (c := .fileSize .preflightAfter candidate.filename.filename) fun size _ => ?_
  refine traced_file (c := .lastWriteTime .preflightAfter candidate.filename.filename)
    fun after _ => ?_
  have hchanged {d' : Database} {events' : List (Lib.Event InventoryCalls)}
      (hrow : OnlyRow candidate.filename d d')
      (hsub : (events ++ [saw (.fileSize .preflightAfter candidate.filename.filename) size] ++
        [saw (.lastWriteTime .preflightAfter candidate.filename.filename) after]).Sublist events')
      (h : size ≠ some q.sizeBytes ∨ after ≠ modifiedTime) :
      CandidateSpec q before candidate d events scan
        (false, (scan'.look candidate q.sizeBytes .changed).setInconclusive) (d', events') := by
    have hevents : events.Sublist events' := .trans (by simp) hsub
    refine .look ⟨candidate.filename, candidate.sha256, q.sizeBytes, .changed⟩ hkept hrow hevents
      (by simp [Scan.look, Scan.setInconclusive, hflagged.looks]) rfl
      (by simp [Scan.look, Scan.setInconclusive, hflagged.conflict, Look.conflicts])
      (by simp [Scan.look, Scan.setInconclusive, Look.failed]) rfl
      ⟨hregular.trans hevents, rfl, ?_⟩ (fun f e he => (hcache f e he).mono hevents)
    rcases h with h | h
    · exact .inl ⟨size, h, hsub.subset (by simp)⟩
    · exact .inr ⟨modifiedTime, after, h, hevents.subset (hseen.subset (by simp)),
        hsub.subset (by simp)⟩
  cases size with
  | none =>
    simp only [wp_pure]
    exact hchanged (.refl hidle) (List.Sublist.refl _) (.inl (by simp))
  | some size =>
    simp only
    split
    · rename_i h
      simp only [wp_bind, wp_unixNow, wp_upsertFile, wp_pure]
      refine traced_file (c := .now) fun now _ => ?_
      refine traced_db (c := .upsertFile ⟨candidate.filename, [], size, after, now⟩)
        fun fault => ?_
      exact hchanged (onlyRow_upsert hidle fault) (by simp) (by simpa using h)
    · rename_i h
      obtain ⟨rfl, rfl⟩ : size = q.sizeBytes ∧ after = modifiedTime := by simpa using h
      simp only [wp_bind, wp_unixNow, wp_upsertFile]
      refine traced_file (c := .now) fun now _ => ?_
      refine traced_db (c := .upsertFile ⟨candidate.filename, hash, q.sizeBytes, after, now⟩)
        fun fault => ?_
      generalize hE : events ++ _ ++ _ ++ _ ++ _ = events'
      have hevents : events.Sublist events' := by
        subst hE
        simp
      have hshown : Look.Shown ⟨candidate.filename, candidate.sha256, q.sizeBytes,
          .hashed after hash⟩ q before events' := by
        refine ⟨hregular.trans hevents, rfl, ?_, hhash.mono hevents⟩
        subst hE
        simp only [List.append_assoc]
        exact hseen.append (by simp)
      have hcache' : CacheShown before scan'.hashCache events' :=
        fun f e he => (hcache f e he).mono hevents
      split
      · rename_i heq
        subst heq
        simp only [wp_pure]
        exact .look _ hkept (onlyRow_upsert hidle fault) hevents
          (by simp [Scan.look, hflagged.looks])
          rfl (by simp [Scan.look, hflagged.conflict, Look.conflicts])
          (by simp [Scan.look, hflagged.inconclusive, Look.failed]) (by simp [Look.matched])
          hshown hcache'
      · rename_i hne
        simp only [wp_pure]
        refine .look _ hkept (onlyRow_upsert hidle fault) hevents
          (by simp [Scan.look, Scan.conflictIf, hflagged.looks]) rfl ?_
          (by simp [Scan.look, Scan.conflictIf, hflagged.inconclusive, Look.failed])
          (by simp [Look.matched, hne]) hshown hcache'
        simp only [Scan.look, Scan.conflictIf, hflagged.conflict, Look.conflicts]
        cases candidate.filename == q.safeName <;> simp [hne]

theorem hashCandidate_spec (scan : Scan) (hidle : d.working = none)
    (hkept : scan.Kept q before events)
    (hflagged : Flagged q candidate scan scan')
    (hcache : CacheShown before scan'.hashCache events)
    (hseen : [saw (.status candidate.filename.filename) .regular,
      saw (.fileSize .preflightBefore candidate.filename.filename)
        (some q.sizeBytes)].Sublist events) :
    wp (Traced (Serves answers)) (hashCandidate q candidate q.sizeBytes scan')
      (CandidateSpec q before candidate d events scan) (d, events) := by
  unfold hashCandidate
  simp only [wp_bind, wp_fileModifiedTime]
  refine traced_file (c := .lastWriteTime .preflightBefore candidate.filename.filename)
    fun modifiedTime _ => ?_
  have hsub : events.Sublist
      (events ++ [saw (.lastWriteTime .preflightBefore candidate.filename.filename)
        modifiedTime]) :=
    List.sublist_append_left _ _
  have hcache' := fun f e he => (hcache f e he).mono hsub
  split
  · rename_i hsettled
    have hname : (candidate.filename == q.safeName) = false := by
      simp only [Bool.and_eq_true, Bool.not_eq_true'] at hsettled
      exact hsettled.1.1.1
    simp only [wp_pure]
    exact .look ⟨candidate.filename, candidate.sha256, q.sizeBytes, .settled⟩ hkept
      (.refl hidle) hsub (by simp [Scan.look, hflagged.looks]) rfl
      (by simp [Scan.look, hflagged.conflict, Look.conflicts, hname])
      (by simp [Scan.look, hflagged.inconclusive, Look.failed]) rfl
      ⟨hseen.trans hsub, rfl⟩ hcache'
  · simp only [wp_bind]
    refine wp_mono (candidateHash_spec hcache' ?_) ?_
    · exact ((List.sublist_cons_self _ _).trans hseen).append (List.Sublist.refl _)
    · rintro ⟨hash, cache⟩ ⟨d', events'⟩ ⟨hd, more, he, hcache'', hempty, hhash⟩
      obtain rfl : d' = d := hd
      obtain rfl : events' = _ := he
      have hevents := hsub.trans (List.sublist_append_left _ more)
      simp only at hcache'' hempty hhash ⊢
      split
      · rename_i hnil
        obtain rfl : hash = [] := by simpa using hnil
        simp only [wp_pure]
        exact .look ⟨candidate.filename, candidate.sha256, q.sizeBytes, .unreadable⟩ hkept
          (.refl hidle) hevents (by simp [Scan.look, Scan.setInconclusive, hflagged.looks]) rfl
          (by simp [Scan.look, Scan.setInconclusive, hflagged.conflict, Look.conflicts])
          (by simp [Scan.look, Scan.setInconclusive, Look.failed]) rfl
          ⟨hseen.trans hevents, rfl, hempty rfl⟩ hcache''
      · rename_i hne
        refine wp_mono (recheckCandidate_spec scan hidle (hkept.mono hevents)
          ⟨hflagged.looks, hflagged.inconclusive, hflagged.conflict⟩ hcache''
          (((hseen.append (List.Sublist.refl _)).trans (List.sublist_append_left _ _)))
          (hhash (by simpa using hne))) ?_
        rintro r s' ⟨hrow, he, hk, hl⟩
        exact ⟨hrow, hevents.trans he, hk, hl⟩

/-- **What the verification of a candidate does**, whatever the destination answers. -/
theorem verifyCandidate_spec (hidle : d.working = none) (hkept : scan.Kept q before events) :
    wp (Traced (Serves answers)) (verifyCandidate q candidate scan)
      (CandidateSpec q before candidate d events scan) (d, events) := by
  unfold verifyCandidate
  simp only [wp_bind, wp_fileStatus]
  refine traced_file (c := .status candidate.filename.filename) fun status _ => ?_
  split
  · simp only [wp_bind, wp_removeFile, wp_pure]
    exact traced_db (c := .removeFile candidate.filename) fun fault =>
      CandidateSpec.unseen hkept (onlyRow_removeFile hidle fault) (by simp)
  · rename_i hstatus
    obtain rfl : status = .regular := by simpa using hstatus
    simp only [wp_bind, wp_fileSize]
    refine traced_file (c := .fileSize .preflightBefore candidate.filename.filename)
      fun size _ => ?_
    cases size with
    | none =>
      simp only [wp_pure]
      exact .unseen hkept (.refl hidle) (by simp)
    | some actualSize =>
      have hsub : events.Sublist (events ++ [saw (.status candidate.filename.filename) .regular] ++
          [saw (.fileSize .preflightBefore candidate.filename.filename) (some actualSize)]) := by
        simp
      have hcache := fun f e he => (hkept.cache f e he).mono hsub
      simp only
      split
      · rename_i hne
        simp only [wp_pure]
        refine .look ⟨candidate.filename, candidate.sha256, actualSize, .otherSize⟩ hkept
          (.refl hidle) hsub rfl rfl ?_ (by simp [Scan.look, Scan.conflictIf, Look.failed])
          rfl ⟨by simp, hne⟩ hcache
        have hsize : (actualSize != q.sizeBytes) = true := by simpa using hne
        simp [Scan.look, Scan.conflictIf, Look.conflicts, hsize]
      · rename_i heq
        obtain rfl : actualSize = q.sizeBytes := by simpa using heq
        refine wp_mono (hashCandidate_spec scan hidle (hkept.mono hsub)
          ⟨rfl, rfl, by simp [Scan.conflictIf]⟩ hcache (by simp)) ?_
        rintro r s' ⟨hrow, he, hk, hl⟩
        exact ⟨hrow, hsub.trans he, hk, hl⟩

/-! ## Pages -/

/-- No look has found the requested hash. -/
def Scan.Unmatched (scan : Scan) (q : PreflightQuery) : Prop :=
  ∀ look ∈ scan.looks, look.matched q = false

/-- What a list of candidates comes to; `hit` is the name of a skip. -/
structure CandidatesSpec (q : PreflightQuery) (before : Option PreflightHashCache)
    (candidates : List FileInventoryRecord) (d : Database)
    (events : List (Lib.Event InventoryCalls))
    (hit : Option ByteString) (scan : Scan) (s' : Database × List (Lib.Event InventoryCalls)) :
    Prop where
  idle : s'.1.working = none
  rows : ∀ r : FileInventoryRecord, (∀ c ∈ candidates, r.filename ≠ c.filename) →
    (r ∈ s'.1.files ↔ r ∈ d.files)
  events : events.Sublist s'.2
  kept : scan.Kept q before s'.2
  unmatched : hit = none → scan.Unmatched q
  matched : ∀ name, hit = some name →
    ∃ look ∈ scan.looks, look.matched q = true ∧ look.filename = name

theorem verifyCandidates_spec {candidates : List FileInventoryRecord} (hidle : d.working = none)
    (hkept : scan.Kept q before events) (hunmatched : scan.Unmatched q) :
    wp (Traced (Serves answers)) (verifyCandidates q candidates scan)
      (fun r => CandidatesSpec q before candidates d events r.1 r.2) (d, events) := by
  induction candidates generalizing d events scan with
  | nil =>
    simp only [verifyCandidates, wp_pure]
    exact ⟨hidle, fun _ _ => Iff.rfl, List.Sublist.refl _, hkept, fun _ => hunmatched, by simp⟩
  | cons candidate rest ih =>
    simp only [verifyCandidates, wp_bind]
    refine wp_mono (verifyCandidate_spec hidle hkept) ?_
    rintro ⟨hit, scan'⟩ ⟨d', events'⟩ ⟨⟨hidle', hrow⟩, he, hk, hl⟩
    simp only at hidle' hrow he hk hl ⊢
    cases hit with
    | true =>
      simp only [wp_pure]
      refine ⟨hidle', fun r hr => hrow r (hr candidate List.mem_cons_self), he, hk, by simp, ?_⟩
      rintro name ⟨⟩
      rcases hl with ⟨hl, -⟩ | ⟨look, hl, hname, hm⟩
      · cases hl
      · exact ⟨look, by simp [hl], hm.symm, hname⟩
    | false =>
      have hun : scan'.Unmatched q := by
        intro look hlook
        rcases hl with ⟨-, hl⟩ | ⟨new, hl, -, hm⟩
        · exact hunmatched look (hl ▸ hlook)
        · rw [hl, List.mem_append] at hlook
          rcases hlook with hlook | hlook
          · exact hunmatched look hlook
          · rw [List.mem_singleton.mp hlook]
            exact hm.symm
      refine wp_mono (ih hidle' hk hun) ?_
      rintro r s' ⟨hidle'', hrows, he', hk', hu, hm⟩
      refine ⟨hidle'', fun r hr => ?_, he.trans he', hk', hu, hm⟩
      rw [hrows r fun c hc => hr c (List.mem_cons_of_mem _ hc),
        hrow r (hr candidate List.mem_cons_self)]

/-- A candidate of the table does not bring a new name into it. -/
theorem CandidatesSpec.no_new_names {candidates : List FileInventoryRecord}
    {hit : Option ByteString} {s' : Database × List (Lib.Event InventoryCalls)}
    (h : CandidatesSpec q before candidates d events hit scan s')
    (hmem : ∀ c ∈ candidates, c ∈ d.files) :
    ∀ r ∈ s'.1.files, ∃ r₀ ∈ d.files, r₀.filename = r.filename := by
  intro r hr
  by_cases hc : ∃ c ∈ candidates, c.filename = r.filename
  · obtain ⟨c, hc, hname⟩ := hc
    exact ⟨c, hmem c hc, hname⟩
  · exact ⟨r, (h.rows r fun c hcand hname => hc ⟨c, hcand, hname.symm⟩).mp hr, rfl⟩

/-- What a result of `verifyPreflight` rests on. -/
structure ResultSpec (q : PreflightQuery) (before : Option PreflightHashCache)
    (result : PreflightResult) (scan : Scan) (events : List (Lib.Event InventoryCalls)) : Prop where
  kept : scan.Kept q before events
  answer : (result.disposition = .skip ∧
      ∃ look ∈ scan.looks, look.matched q = true ∧ look.filename = result.filename) ∨
    (scan.Unmatched q ∧ result = q.answer scan)

/-- How many more pages there can be. -/
def pagesLeft (knownHashPages : Bool) (afterFilename : ByteString) (files : Inventory) : Nat :=
  if knownHashPages then files.after afterFilename + files.rows.length + 2
  else files.after afterFilename + 1

/-- The rows that the page loop reads. -/
def pageOf (q : PreflightQuery) (knownHashPages : Bool) (afterFilename : ByteString)
    (files : Inventory) : List FileInventoryRecord :=
  if knownHashPages then files.findByHash q.sha256 afterFilename
  else files.findVerificationCandidates q.safeName q.sizeBytes q.sha256 afterFilename

/-- A page of either phase is a page of the table. -/
theorem pageOf_cases (q : PreflightQuery) (knownHashPages : Bool) (afterFilename : ByteString)
    (files : Inventory) : pageOf q knownHashPages afterFilename files = [] ∨
      ∃ p, pageOf q knownHashPages afterFilename files = files.page p afterFilename pageLimit := by
  unfold pageOf Inventory.findByHash Inventory.findVerificationCandidates
  split <;> split
  · exact .inl rfl
  · exact .inr ⟨_, rfl⟩
  · exact .inl rfl
  · exact .inr ⟨_, rfl⟩

theorem mem_of_mem_pageOf {knownHashPages : Bool} {afterFilename : ByteString} {files : Inventory}
    {c : FileInventoryRecord} (h : c ∈ pageOf q knownHashPages afterFilename files) :
    c ∈ files := by
  rcases pageOf_cases q knownHashPages afterFilename files with hp | ⟨p, hp⟩
  · rw [hp] at h
    cases h
  · rw [hp] at h
    exact (SortedTable.mem_of_mem_page h).1

/-- After a page fewer pages are left. -/
theorem pagesLeft_lt {knownHashPages : Bool} {afterFilename : ByteString} {files files' : Inventory}
    {last : FileInventoryRecord}
    (hlast : (pageOf q knownHashPages afterFilename files).getLast? = some last)
    (hnames : ∀ r ∈ files', ∃ r₀ ∈ files, r₀.filename = r.filename) :
    pagesLeft knownHashPages last.filename files' <
      pagesLeft knownHashPages afterFilename files := by
  have hlt : files.after last.filename < files.after afterFilename := by
    rcases pageOf_cases q knownHashPages afterFilename files with hp | ⟨p, hp⟩
    · rw [hp] at hlast
      cases hlast
    · rw [hp] at hlast
      exact SortedTable.after_lt hlast
  have hafter := SortedTable.after_mono hnames last.filename
  have hlength := SortedTable.length_le_of_keys [] fun r hr => .inr (hnames r hr)
  simp only [List.length_nil, Nat.zero_add] at hlength
  unfold pagesLeft
  split <;> omega

theorem nextCandidates_spec {knownHashPages : Bool} {afterFilename : ByteString}
    (hidle : d.working = none) :
    wp (Traced (Serves answers)) (nextCandidates q knownHashPages afterFilename)
      (fun page s' => page = pageOf q knownHashPages afterFilename d.files ∧ s'.1 = d ∧
        events.Sublist s'.2) (d, events) := by
  have hcurrent : d.current = d.files := by simp [Database.current, hidle]
  unfold nextCandidates pageOf
  split
  · simp only [wp_findByHash]
    refine traced_db (c := .findByHash q.sha256 afterFilename) fun fault => ?_
    exact ⟨congrArg (·.findByHash q.sha256 afterFilename) hcurrent, rfl, by simp⟩
  · simp only [wp_findVerificationCandidates]
    refine traced_db (c := .findVerificationCandidates q.safeName q.sizeBytes q.sha256
      afterFilename) fun fault => ?_
    exact ⟨congrArg (·.findVerificationCandidates q.safeName q.sizeBytes q.sha256 afterFilename)
      hcurrent, rfl, by simp⟩

theorem verifyPages_spec {fuel : Nat} {knownHashPages : Bool} {afterFilename : ByteString}
    (hidle : d.working = none) (hkept : scan.Kept q before events)
    (hunmatched : scan.Unmatched q) :
    wp (Traced (Serves answers)) (verifyPages q fuel knownHashPages afterFilename scan)
      (fun r s' => (pagesLeft knownHashPages afterFilename d.files ≤ fuel → r.isSome) ∧
        ∀ result scan', r = some (result, scan') → ResultSpec q before result scan' s'.2)
      (d, events) := by
  induction fuel generalizing d events scan knownHashPages afterFilename with
  | zero =>
    simp only [verifyPages, wp_pure]
    refine ⟨fun h => ?_, by simp⟩
    unfold pagesLeft at h
    split at h <;> omega
  | succ fuel ih =>
    simp only [verifyPages, wp_bind]
    refine wp_mono (nextCandidates_spec hidle) ?_
    rintro page ⟨d', events'⟩ ⟨hpage, hd, he⟩
    obtain rfl : d' = d := hd
    simp only at he ⊢
    have hkept' := hkept.mono he
    cases hlast : page.getLast? with
    | none =>
      simp only
      split
      · rename_i hknown
        -- The matches are exhausted; the second phase starts from the first name.
        refine wp_mono (ih hidle hkept' hunmatched) ?_
        rintro r s' ⟨hsome, hres⟩
        refine ⟨fun h => hsome ?_, hres⟩
        have hle := d'.files.after_le []
        simp only [pagesLeft, hknown, if_true, Bool.false_eq_true, if_false] at h ⊢
        omega
      · simp only [wp_pure]
        refine ⟨fun _ => rfl, ?_⟩
        rintro result scan' ⟨⟩
        exact ⟨hkept', .inr ⟨hunmatched, rfl⟩⟩
    | some last =>
      simp only [wp_bind]
      refine wp_mono (verifyCandidates_spec hidle hkept' hunmatched) ?_
      rintro ⟨hit, scan'⟩ ⟨d'', events''⟩ hspec
      have hnames := hspec.no_new_names fun c hc => mem_of_mem_pageOf (hpage ▸ hc)
      obtain ⟨hidle', -, he', hk, hu, hm⟩ := hspec
      simp only at hidle' hnames he' hk hu hm ⊢
      cases hit with
      | some name =>
        simp only [wp_pure]
        refine ⟨fun _ => rfl, ?_⟩
        rintro result scan'' ⟨⟩
        exact ⟨hk, .inl ⟨rfl, hm name rfl⟩⟩
      | none =>
        refine wp_mono (ih hidle' hk (hu rfl)) ?_
        rintro r s' ⟨hsome, hres⟩
        have hlt := pagesLeft_lt (hpage ▸ hlast) hnames
        exact ⟨fun h => hsome (by omega), hres⟩

theorem exactCandidates_spec {safeName : ByteString} :
    wp (Traced (Serves answers)) (exactCandidates safeName)
      (fun candidates s' => s'.1 = d ∧ ∀ c ∈ candidates, c.filename = safeName ∧ c.sha256 = [])
      (d, events) := by
  unfold exactCandidates
  simp only [wp_bind, wp_fileStatus]
  refine traced_file (c := .status safeName.filename) fun status _ => ?_
  split
  · simp only [wp_bind, wp_fileSize, wp_pure]
    refine traced_file (c := .fileSize .exactCandidate safeName.filename) fun size _ => ?_
    exact ⟨rfl, by simp [exactCandidate]⟩
  · simp

/-- A number of pages that is enough for every destination. -/
def enoughPages (files : Inventory) : Nat := 2 * files.rows.length + 4

/-- **`verifyPreflight`, whatever the destination answers**: it ends when enough pages are allowed,
and its result rests on what it has looked at. -/
theorem verifyPreflight_spec {fuel : Nat} {env : NameEnv} {originalName sha256 : ByteString}
    {sizeBytes : Nat} {hashCache : Option PreflightHashCache} (hidle : d.working = none)
    (hsha : sha256.length = 64) :
    wp (Traced (Serves answers))
      (verifyPreflight fuel env originalName sizeBytes sha256 hashCache)
      (fun r s' => (enoughPages d.files ≤ fuel → r.isSome) ∧ ∀ result scan',
        r = some (result, scan') →
          ResultSpec ⟨makeFinalFilename env originalName, sizeBytes, sha256⟩ hashCache result scan'
            s'.2) (d, []) := by
  unfold verifyPreflight
  rw [if_neg (by simpa using hsha)]
  simp only [wp_bind]
  refine wp_mono exactCandidates_spec ?_
  rintro candidates ⟨d', events⟩ ⟨hd, hexact⟩
  obtain rfl : d' = d := hd
  have hstart := (Scan.Kept.start ⟨makeFinalFilename env originalName, sizeBytes, sha256⟩
    hashCache).mono (List.nil_sublist events)
  refine wp_mono (verifyCandidates_spec hidle hstart (by simp [Scan.Unmatched, Scan.start])) ?_
  rintro ⟨hit, scan⟩ ⟨d'', events''⟩ ⟨hidle', hrows, he, hk, hu, hm⟩
  simp only at hidle' hrows he hk hu hm ⊢
  cases hit with
  | some name =>
    simp only [wp_pure]
    refine ⟨fun _ => rfl, ?_⟩
    rintro result scan'' ⟨⟩
    exact ⟨hk, .inl ⟨rfl, hm name rfl⟩⟩
  | none =>
    refine wp_mono (verifyPages_spec hidle' hk (hu rfl)) ?_
    rintro r s' ⟨hsome, hres⟩
    refine ⟨fun h => hsome ?_, hres⟩
    have hlength := SortedTable.length_le_of_keys (t := d'.files) (u := d''.files)
      [makeFinalFilename env originalName] fun r hr => by
        by_cases hname : r.filename = makeFinalFilename env originalName
        · exact .inl (List.mem_singleton.mpr hname)
        · exact .inr ⟨r, (hrows r fun c hc => (hexact c hc).1 ▸ hname).mp hr, rfl⟩
    have hle := d''.files.after_le []
    simp only [List.length_singleton] at hlength
    simp only [pagesLeft, if_true]
    simp only [enoughPages] at h
    omega

end Candidate

end Preflight

end LocalMediaTransfer
