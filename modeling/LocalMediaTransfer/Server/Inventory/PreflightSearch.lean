import LocalMediaTransfer.Server.FilenameSafety
import LocalMediaTransfer.Server.Inventory.PreflightLooks

/-!
# Duplicate preflight finds what is there, and only that

On any destination `verifyPreflight` ends within a number of pages that the size of the inventory
bounds, and skips only what it has seen.  On a directory at rest whose managed files are all in
the inventory it finds every file with the requested size and hash: its row is changed by no other
candidate, and no page passes it over.

* `verifyPreflight_correct` — **termination, soundness and completeness**.
-/

set_option autoImplicit false

namespace LocalMediaTransfer

open Lib HashEngine

namespace HashEngine

/-- A file that the inventory keeps a row for. -/
def Directory.Managed (dir : Directory) (name : ByteString) : Prop :=
  name ∈ dir.entries ∧ (dir.file name).status = .regular ∧ isManagedName name = true

end HashEngine

namespace Preflight

/-! ## A directory at rest -/

section AtRest

variable {sha256 : ByteString → ByteString} {dir : Directory}

/-- What is cached for the present size and modification time of a file is its hash. -/
def CacheTrue (sha256 : ByteString → ByteString) (dir : Directory)
    (hashCache : Option PreflightHashCache) : Prop :=
  ∀ filename entry, hashCache.bind (fun cache => cache.lookup filename) = some entry →
    (dir.file filename.filename).size = some entry.sizeBytes →
    (dir.file filename.filename).modifiedTime = entry.modifiedTime →
    entry.sha256 = sha256 (dir.file filename.filename).content

/-- The candidate stands for a readable file with the requested size and hash, and its stored hash
is the requested one or absent. -/
structure Hits (sha256 : ByteString → ByteString) (dir : Directory) (q : PreflightQuery)
    (candidate : FileInventoryRecord) : Prop where
  regular : (dir.file candidate.filename.filename).status = .regular
  size : (dir.file candidate.filename.filename).size = some q.sizeBytes
  readable : (dir.file candidate.filename.filename).readable = true
  hash : sha256 (dir.file candidate.filename.filename).content = q.sha256
  stored : candidate.sha256 = [] ∨ candidate.sha256 = q.sha256

theorem length_of_size {f : DiskFile} {size : Nat} (h : f.size = some size) :
    f.content.length = size := by
  unfold DiskFile.size at h
  split at h
  · cases h
  · exact Option.some.inj h

variable {d : Database} {events : List (Lib.Event InventoryCalls)} {q : PreflightQuery}
  {candidate : FileInventoryRecord} {scan : Scan}

theorem computeFileHash_rest {name : ByteString} {size : Nat}
    (hsize : (dir.file name).size = some size) :
    wp (Traced (Serves (dir.Answers sha256)))
      (HashEngine.computeFileHash .preflight name (some size))
      (fun hash _ => hash = if (dir.file name).readable then sha256 (dir.file name).content else [])
      (d, events) := by
  unfold HashEngine.computeFileHash
  simp only [wp_bind, wp_openFile]
  refine traced_file (c := .openFile .preflight name) fun opened hopened => ?_
  obtain rfl : opened = (dir.file name).readable := hopened
  cases hr : (dir.file name).readable with
  | false => simp
  | true =>
    simp only [Bool.not_true, Bool.false_eq_true, if_false, wp_bind, wp_fileSize, if_true]
    refine traced_file (c := .fileSize .hashing name) fun x hx => ?_
    obtain rfl : x = some size := hx.trans hsize
    simp only [Option.any_some, bne_self_eq_false, Bool.false_eq_true, if_false,
      Option.getD_some, wp_computeStreamHash]
    refine traced_file (c := .streamHash name size) fun hash hhash => ?_
    have hlen := length_of_size hsize
    simpa [Directory.Answers, hr, hlen] using hhash

theorem candidateHash_rest {hashCache : Option PreflightHashCache} {filename : ByteString}
    {size : Nat} (hcache : CacheTrue sha256 dir hashCache)
    (hsize : (dir.file filename.filename).size = some size) :
    wp (Traced (Serves (dir.Answers sha256)))
      (candidateHash hashCache filename size (dir.file filename.filename).modifiedTime)
      (fun r _ => CacheTrue sha256 dir r.2 ∧ ((dir.file filename.filename).readable = true →
        r.1 = sha256 (dir.file filename.filename).content)) (d, events) := by
  unfold candidateHash
  simp only [Bool.not_eq_true', List.isEmpty_eq_false_iff]
  split
  · rename_i hne
    simp only [wp_pure]
    exact ⟨hcache, fun _ => hcache filename _ (cachedHash_spec hne) hsize rfl⟩
  · rw [wp_bind]
    refine wp_mono (computeFileHash_rest hsize) ?_
    rintro hash s' hhash
    split <;> rename_i hnil <;> simp only [wp_pure]
    · refine ⟨hcache, fun hr => ?_⟩
      rw [hr, if_pos rfl] at hhash
      rw [← hhash]
      simpa using hnil.symm
    · have hr : (dir.file filename.filename).readable = true := by
        by_contra h
        rw [if_neg h] at hhash
        exact hnil (by simp [hhash])
      rw [hr, if_pos rfl] at hhash
      refine ⟨fun f e he hs hm => ?_, fun _ => hhash⟩
      rcases lookup_rememberHash he with ⟨rfl, rfl⟩ | he
      · exact hhash
      · exact hcache f e he hs hm

theorem recheckCandidate_rest {hash : ByteString} {size : Nat}
    (hsize : (dir.file candidate.filename.filename).size = some size) :
    wp (Traced (Serves (dir.Answers sha256)))
      (recheckCandidate q candidate size (dir.file candidate.filename.filename).modifiedTime hash
        scan)
      (fun r _ => r.2.hashCache = scan.hashCache ∧ (hash = q.sha256 → r.1 = true))
      (d, events) := by
  unfold recheckCandidate
  simp only [wp_bind, wp_fileSize, wp_fileModifiedTime]
  refine traced_file (c := .fileSize .preflightAfter candidate.filename.filename) fun x hx => ?_
  obtain rfl : x = some size := hx.trans hsize
  refine traced_file (c := .lastWriteTime .preflightAfter candidate.filename.filename)
    fun after hafter => ?_
  obtain rfl : after = (dir.file candidate.filename.filename).modifiedTime := hafter
  simp only [ne_eq, not_true_eq_false, or_self, if_false, wp_bind, wp_unixNow, wp_upsertFile]
  refine traced_file (c := .now) fun now _ => ?_
  refine traced_db (c := .upsertFile ⟨candidate.filename, hash, size,
    (dir.file candidate.filename.filename).modifiedTime, now⟩) fun fault => ?_
  split
  · simp [Scan.look]
  · rename_i hne
    simp only [wp_pure]
    exact ⟨rfl, fun h => absurd h hne⟩

theorem hashCandidate_rest (hcache : CacheTrue sha256 dir scan.hashCache) (hsha : q.sha256 ≠ [])
    (hsize : (dir.file candidate.filename.filename).size = some q.sizeBytes) :
    wp (Traced (Serves (dir.Answers sha256))) (hashCandidate q candidate q.sizeBytes scan)
      (fun r _ => CacheTrue sha256 dir r.2.hashCache ∧
        (Hits sha256 dir q candidate → r.1 = true)) (d, events) := by
  unfold hashCandidate
  simp only [wp_bind, wp_fileModifiedTime]
  refine traced_file (c := .lastWriteTime .preflightBefore candidate.filename.filename)
    fun modifiedTime hmodified => ?_
  obtain rfl : modifiedTime = (dir.file candidate.filename.filename).modifiedTime := hmodified
  split
  · rename_i hsettled
    simp only [Bool.and_eq_true, Bool.not_eq_true', List.isEmpty_eq_false_iff] at hsettled
    simp only [wp_pure]
    refine ⟨hcache, fun h => ?_⟩
    rcases h.stored with hs | hs
    · exact absurd hs hsettled.1.1.2
    · simp [hs] at hsettled
  · simp only [wp_bind]
    refine wp_mono (candidateHash_rest hcache hsize) ?_
    rintro ⟨hash, cache⟩ ⟨d', events'⟩ ⟨hcache', hhash⟩
    simp only at hcache' hhash ⊢
    split
    · rename_i hnil
      simp only [wp_pure]
      refine ⟨hcache', fun h => ?_⟩
      rw [hhash h.readable, h.hash] at hnil
      exact absurd (by simpa using hnil) hsha
    · refine wp_mono (recheckCandidate_rest hsize) ?_
      rintro ⟨hit, scan'⟩ s' ⟨hsame, hhit⟩
      exact ⟨hsame ▸ hcache', fun h => hhit ((hhash h.readable).trans h.hash)⟩

/-- On a directory at rest the cache stays true, and a candidate that hits is skipped. -/
theorem verifyCandidate_rest (hcache : CacheTrue sha256 dir scan.hashCache) (hsha : q.sha256 ≠ []) :
    wp (Traced (Serves (dir.Answers sha256))) (verifyCandidate q candidate scan)
      (fun r _ => CacheTrue sha256 dir r.2.hashCache ∧
        (Hits sha256 dir q candidate → r.1 = true)) (d, events) := by
  unfold verifyCandidate
  simp only [wp_bind, wp_fileStatus]
  refine traced_file (c := .status candidate.filename.filename) fun status hstatus => ?_
  obtain rfl : status = (dir.file candidate.filename.filename).status := hstatus
  split
  · rename_i hne
    simp only [wp_bind, wp_removeFile, wp_pure]
    exact traced_db (c := .removeFile candidate.filename) fun fault =>
      ⟨hcache, fun h => absurd h.regular hne⟩
  · simp only [wp_bind, wp_fileSize]
    refine traced_file (c := .fileSize .preflightBefore candidate.filename.filename)
      fun size hsize => ?_
    replace hsize : size = (dir.file candidate.filename.filename).size := hsize
    cases size with
    | none =>
      simp only [wp_pure]
      exact ⟨hcache, fun h => by simp [h.size] at hsize⟩
    | some actualSize =>
      simp only
      split
      · rename_i hne
        simp only [wp_pure]
        exact ⟨hcache, fun h => absurd (by simpa [h.size] using hsize) hne⟩
      · rename_i heq
        obtain rfl : actualSize = q.sizeBytes := by simpa using heq
        exact hashCandidate_rest hcache hsha hsize.symm

theorem verifyCandidates_rest {candidates : List FileInventoryRecord}
    (hcache : CacheTrue sha256 dir scan.hashCache) (hsha : q.sha256 ≠ []) :
    wp (Traced (Serves (dir.Answers sha256))) (verifyCandidates q candidates scan)
      (fun r _ => CacheTrue sha256 dir r.2.hashCache ∧
        ((∃ c ∈ candidates, Hits sha256 dir q c) → r.1 ≠ none)) (d, events) := by
  induction candidates generalizing d events scan with
  | nil => simpa [verifyCandidates] using hcache
  | cons candidate rest ih =>
    simp only [verifyCandidates, wp_bind]
    refine wp_mono (verifyCandidate_rest hcache hsha) ?_
    rintro ⟨hit, scan'⟩ ⟨d', events'⟩ ⟨hcache', hhit⟩
    cases hit with
    | true => simpa using hcache'
    | false =>
      refine wp_mono (ih hcache') ?_
      rintro r s' ⟨hcache'', hrest⟩
      refine ⟨hcache'', ?_⟩
      rintro ⟨c, hc, hits⟩
      rcases List.mem_cons.mp hc with rfl | hc
      · exact absurd (hhit hits) (by simp)
      · exact hrest ⟨c, hc, hits⟩

/-- The row is still ahead of the cursor of the phase that reads it. -/
def Ahead (q : PreflightQuery) (knownHashPages : Bool) (afterFilename : ByteString)
    (row : FileInventoryRecord) : Prop :=
  [] < row.filename ∧ match knownHashPages with
    | true => row.sha256 = q.sha256 → afterFilename < row.filename
    | false => afterFilename < row.filename

/-- The next page holds the row, or it is still ahead after the page. -/
theorem Ahead.next {files : Inventory} {row last : FileInventoryRecord} {knownHashPages : Bool}
    {afterFilename : ByteString} (hrow : row ∈ files) (hsize : row.sizeBytes = q.sizeBytes)
    (hname : q.safeName ≠ []) (hsha : q.sha256 ≠ [])
    (h : Ahead q knownHashPages afterFilename row)
    (hlast : (pageOf q knownHashPages afterFilename files).getLast? = some last) :
    row ∈ pageOf q knownHashPages afterFilename files ∨
      Ahead q knownHashPages last.filename row := by
  have hlimit : 0 < pageLimit := by decide
  obtain ⟨hpos, h⟩ := h
  cases knownHashPages with
  | true =>
    by_cases hstored : row.sha256 = q.sha256
    · have hpage : pageOf q true afterFilename files =
          files.page (fun r => r.sha256 == q.sha256) afterFilename pageLimit := by
        simp [pageOf, Inventory.findByHash, hsha]
      obtain ⟨last', hlast', hcover⟩ := SortedTable.page_covers
        (p := fun r : FileInventoryRecord => r.sha256 == q.sha256) hlimit hrow
          (by simpa using hstored)
        (h hstored)
      rw [hpage, hlast', Option.some.injEq] at hlast
      subst hlast
      rw [hpage]
      exact hcover.imp_right fun h => ⟨hpos, fun _ => h⟩
    · exact .inr ⟨hpos, fun h => absurd h hstored⟩
  | false =>
    have hpage : pageOf q false afterFilename files = files.page
        (fun r => r.filename == q.safeName || r.sha256 == q.sha256 || r.sizeBytes == q.sizeBytes)
        afterFilename pageLimit := by
      simp [pageOf, Inventory.findVerificationCandidates, hsha, hname]
    obtain ⟨last', hlast', hcover⟩ := SortedTable.page_covers
      (p := fun r : FileInventoryRecord => r.filename == q.safeName || r.sha256 == q.sha256 ||
        r.sizeBytes == q.sizeBytes) hlimit hrow (by simp [hsize]) h
    rw [hpage, hlast', Option.some.injEq] at hlast
    subst hlast
    rw [hpage]
    exact hcover.imp_right fun h => ⟨hpos, h⟩

/-- A phase does not end while its row is ahead. -/
theorem Ahead.of_empty {files : Inventory} {row : FileInventoryRecord} {knownHashPages : Bool}
    {afterFilename : ByteString} (hrow : row ∈ files) (hsize : row.sizeBytes = q.sizeBytes)
    (hname : q.safeName ≠ []) (hsha : q.sha256 ≠ [])
    (h : Ahead q knownHashPages afterFilename row)
    (hlast : (pageOf q knownHashPages afterFilename files).getLast? = none) :
    knownHashPages = true ∧ Ahead q false [] row := by
  obtain ⟨hpos, h⟩ := h
  cases knownHashPages with
  | true => exact ⟨rfl, hpos, hpos⟩
  | false =>
    have hpage : pageOf q false afterFilename files = files.page
        (fun r => r.filename == q.safeName || r.sha256 == q.sha256 || r.sizeBytes == q.sizeBytes)
        afterFilename pageLimit := by
      simp [pageOf, Inventory.findVerificationCandidates, hsha, hname]
    obtain ⟨last', hlast', -⟩ := SortedTable.page_covers
      (p := fun r : FileInventoryRecord => r.filename == q.safeName || r.sha256 == q.sha256 ||
        r.sizeBytes == q.sizeBytes) (show 0 < pageLimit by decide) hrow (by simp [hsize]) h
    rw [hpage, hlast'] at hlast
    cases hlast

/-- A row that no candidate of the page stands for is left alone. -/
theorem mem_of_not_page {files files' : Inventory} {row : FileInventoryRecord}
    {knownHashPages : Bool} {afterFilename : ByteString} (hrow : row ∈ files)
    (hnot : row ∉ pageOf q knownHashPages afterFilename files)
    (hrows : ∀ r : FileInventoryRecord,
      (∀ c ∈ pageOf q knownHashPages afterFilename files, r.filename ≠ c.filename) →
      (r ∈ files' ↔ r ∈ files)) : row ∈ files' := by
  refine (hrows row fun c hc heq => hnot ?_).mpr hrow
  rwa [SortedTable.eq_of_key hrow (mem_of_mem_pageOf hc) heq]

/-- **No match is missed**, however many pages there are. -/
theorem verifyPages_rest {fuel : Nat} {knownHashPages : Bool} {afterFilename : ByteString}
    {row : FileInventoryRecord} {before : Option PreflightHashCache} (hidle : d.working = none)
    (hkept : scan.Kept q before events) (hunmatched : scan.Unmatched q)
    (hcache : CacheTrue sha256 dir scan.hashCache) (hname : q.safeName ≠ []) (hsha : q.sha256 ≠ [])
    (hrow : row ∈ d.files) (hsize : row.sizeBytes = q.sizeBytes)
    (hhits : Hits sha256 dir q row) (hahead : Ahead q knownHashPages afterFilename row) :
    wp (Traced (Serves (dir.Answers sha256))) (verifyPages q fuel knownHashPages afterFilename scan)
      (fun r _ => ∀ result scan', r = some (result, scan') → result.disposition = .skip)
      (d, events) := by
  induction fuel generalizing d events scan knownHashPages afterFilename with
  | zero => simp [verifyPages]
  | succ fuel ih =>
    simp only [verifyPages, wp_bind]
    refine wp_mono (nextCandidates_spec hidle) ?_
    rintro page ⟨d', events'⟩ ⟨hpage, hd, he⟩
    obtain rfl : d' = d := hd
    simp only at he ⊢
    have hkept' := hkept.mono he
    cases hlast : page.getLast? with
    | none =>
      obtain ⟨hknown, hahead'⟩ := hahead.of_empty hrow hsize hname hsha (hpage ▸ hlast)
      simp only [hknown, if_true]
      exact ih hidle hkept' hunmatched hcache hrow hahead'
    | some last =>
      simp only [wp_bind]
      refine wp_mono (wp_and (verifyCandidates_spec hidle hkept' hunmatched)
        (verifyCandidates_rest hcache hsha)) ?_
      rintro ⟨hit, scan'⟩ ⟨d'', events''⟩ ⟨⟨hidle', hrows, he', hk, hu, -⟩, hcache', hhit⟩
      simp only at hidle' hrows he' hk hu hcache' hhit ⊢
      cases hit with
      | some name => simp
      | none =>
        have hnot : row ∉ page := fun h => hhit ⟨row, h, hhits⟩ rfl
        rw [hpage] at hnot hrows
        refine ih hidle' hk (hu rfl) hcache' (mem_of_not_page hrow hnot hrows) ?_
        exact (hahead.next hrow hsize hname hsha (hpage ▸ hlast)).resolve_left hnot

theorem exactCandidates_rest {safeName : ByteString} :
    wp (Traced (Serves (dir.Answers sha256))) (exactCandidates safeName)
      (fun candidates _ => (dir.file safeName.filename).status = .regular →
        ∃ c ∈ candidates, c.filename = safeName ∧ c.sha256 = []) (d, events) := by
  unfold exactCandidates
  simp only [wp_bind, wp_fileStatus]
  refine traced_file (c := .status safeName.filename) fun status hstatus => ?_
  obtain rfl : status = (dir.file safeName.filename).status := hstatus
  split
  · simp only [wp_bind, wp_fileSize, wp_pure]
    refine traced_file (c := .fileSize .exactCandidate safeName.filename) fun size _ => ?_
    simp [exactCandidate]
  · rename_i hne
    simp only [wp_pure]
    exact fun h => absurd h hne

end AtRest

/-! ## Termination, soundness and completeness -/

/-- A regular file of this name and size was seen, its size and modification time were the same
after its hash was known, and the hash was computed in the call or cached for this size and
modification time. -/
def MatchSeen (hashCache : Option PreflightHashCache) (events : List (Lib.Event InventoryCalls))
    (filename : ByteString) (sizeBytes : Nat) (sha256 : ByteString) : Prop :=
  ∃ modifiedTime,
    [saw (.status filename.filename) .regular,
      saw (.fileSize .preflightBefore filename.filename) (some sizeBytes),
      saw (.lastWriteTime .preflightBefore filename.filename) modifiedTime,
      saw (.fileSize .preflightAfter filename.filename) (some sizeBytes),
      saw (.lastWriteTime .preflightAfter filename.filename) modifiedTime].Sublist events ∧
    HashShown hashCache events filename sizeBytes modifiedTime sha256

theorem Look.Shown.matchSeen {look : Look} {q : PreflightQuery}
    {hashCache : Option PreflightHashCache} {events : List (Lib.Event InventoryCalls)}
    (h : look.Shown q hashCache events) (hmatched : look.matched q = true) :
    MatchSeen hashCache events look.filename q.sizeBytes q.sha256 := by
  obtain ⟨filename, storedHash, sizeBytes, verdict⟩ := look
  cases verdict with
  | hashed modifiedTime hash =>
    obtain ⟨-, hsize, hsub, hhash⟩ := h
    obtain rfl : hash = q.sha256 := by simpa [Look.matched] using hmatched
    obtain rfl : sizeBytes = q.sizeBytes := hsize
    exact ⟨modifiedTime, hsub, hhash⟩
  | _ => simp [Look.matched] at hmatched

theorem ResultSpec.matchSeen {q : PreflightQuery} {hashCache : Option PreflightHashCache}
    {result : PreflightResult} {scan : Scan} {events : List (Lib.Event InventoryCalls)}
    (h : ResultSpec q hashCache result scan events) (hskip : result.disposition = .skip) :
    MatchSeen hashCache events result.filename q.sizeBytes q.sha256 := by
  rcases h.answer with ⟨-, look, hlook, hmatched, hname⟩ | ⟨-, rfl⟩
  · rw [← hname]
    exact (h.kept.shown look hlook).matchSeen hmatched
  · unfold PreflightQuery.answer at hskip
    split at hskip
    · cases hskip
    · split at hskip <;> cases hskip

/-- Every managed file has a row with its present size and modification time, and with its hash or
none. -/
def Indexed (sha256 : ByteString → ByteString) (dir : Directory) (files : Inventory) : Prop :=
  ∀ name, dir.Managed name → ∃ row ∈ files, row.filename = name ∧
    (dir.file name).size = some row.sizeBytes ∧
    row.modifiedTime = (dir.file name).modifiedTime ∧
    (row.sha256 = [] ∨ row.sha256 = sha256 (dir.file name).content)

theorem verifyPreflight_rest {sha256 : ByteString → ByteString} {dir : Directory} {d : Database}
    {fuel : Nat} {env : NameEnv} {originalName hash : ByteString} {sizeBytes : Nat}
    {hashCache : Option PreflightHashCache} (hidle : d.working = none) (hsha : hash.length = 64)
    (hindexed : Indexed sha256 dir d.files) (hcache : CacheTrue sha256 dir hashCache)
    {name : ByteString} (hmanaged : dir.Managed name)
    (hsize : (dir.file name).size = some sizeBytes) (hreadable : (dir.file name).readable = true)
    (hhash : sha256 (dir.file name).content = hash) :
    wp (Traced (Serves (dir.Answers sha256)))
      (verifyPreflight fuel env originalName sizeBytes hash hashCache)
      (fun r _ => ∀ result scan, r = some (result, scan) → result.disposition = .skip)
      (d, []) := by
  obtain ⟨row, hrow, rfl, hrowsize, -, hstored⟩ := hindexed name hmanaged
  obtain ⟨hne, hcomponent⟩ := dir.component _ hmanaged.1
  have hnil : hash ≠ [] := fun h => by simp [h] at hsha
  let q : PreflightQuery := ⟨makeFinalFilename env originalName, sizeBytes, hash⟩
  have hhits : ∀ c : FileInventoryRecord, c.filename = row.filename →
      (c.sha256 = [] ∨ c.sha256 = hash) → Hits sha256 dir q c := by
    intro c hc hs
    refine ⟨?_, ?_, ?_, ?_, hs⟩ <;> rw [hc, hcomponent]
    exacts [hmanaged.2.1, hsize, hreadable, hhash]
  unfold verifyPreflight
  rw [if_neg (by simpa using hsha)]
  simp only [wp_bind]
  refine wp_mono (wp_and exactCandidates_spec exactCandidates_rest) ?_
  rintro candidates ⟨d', events⟩ ⟨⟨hd, hexact⟩, hregular⟩
  obtain rfl : d' = d := hd
  refine wp_mono (wp_and (verifyCandidates_spec hidle
    ((Scan.Kept.start q hashCache).mono (List.nil_sublist events))
    (by simp [Scan.Unmatched, Scan.start])) (verifyCandidates_rest hcache hnil)) ?_
  rintro ⟨hit, scan⟩ ⟨d'', events''⟩ ⟨⟨hidle', hrows, -, hk, hu, -⟩, hcache', hhit⟩
  simp only at hidle' hrows hk hu hcache' hhit ⊢
  cases hit with
  | some name => simp
  | none =>
    have hother : row.filename ≠ makeFinalFilename env originalName := by
      intro heq
      obtain ⟨c, hc, hname, hs⟩ := hregular (by rw [← heq, hcomponent]; exact hmanaged.2.1)
      exact hhit ⟨c, hc, hhits c (hname.trans heq.symm) (.inl hs)⟩ rfl
    have hrow' : row ∈ d''.files :=
      (hrows row fun c hc => (hexact c hc).1 ▸ hother).mpr hrow
    have hpos : [] < row.filename := by
      cases hf : row.filename with
      | nil => exact absurd hf hne
      | cons a rest => exact List.nil_lt_cons a rest
    refine verifyPages_rest hidle' hk (hu rfl) hcache' (makeFinalFilename_ne_nil env originalName)
      hnil hrow' ?_ (hhits row rfl (by rwa [hhash] at hstored)) ⟨hpos, fun _ => hpos⟩
    rw [hsize] at hrowsize
    exact (Option.some.inj hrowsize).symm

/-- **Duplicate preflight is sound and complete.**  Whatever the destination answers, the call ends
within a bounded number of pages, and a skip rests on a match that was seen.  On a directory at
rest whose managed files are indexed, where the files of the requested size can be read and cached
hashes are those of the files, a managed file with the requested size and hash is found. -/
theorem verifyPreflight_correct (env : NameEnv) (originalName hash : ByteString) (sizeBytes : Nat)
    (hashCache : Option PreflightHashCache) (files : Inventory) (hsha : hash.length = 64) :
    (∀ answers : (c : FileCall) → c.Answer → Prop, (∀ c, ∃ x, answers c x) →
      ∀ fuel, ∃ events r d', Runs (Serves answers) (.of files)
        (verifyPreflight fuel env originalName sizeBytes hash hashCache) events r d') ∧
    (∀ (answers : (c : FileCall) → c.Answer → Prop) (fuel : Nat)
      (events : List (Lib.Event InventoryCalls)) (r : Option (PreflightResult × Scan))
        (d' : Database),
      Runs (Serves answers) (.of files)
        (verifyPreflight fuel env originalName sizeBytes hash hashCache) events r d' →
      (enoughPages files ≤ fuel → r.isSome) ∧
      ∀ result scan, r = some (result, scan) → result.disposition = .skip →
        MatchSeen hashCache events result.filename sizeBytes hash) ∧
    (∀ (sha256 : ByteString → ByteString) (dir : Directory), Indexed sha256 dir files →
      CacheTrue sha256 dir hashCache →
      (∀ name, dir.Managed name → (dir.file name).size = some sizeBytes →
        (dir.file name).readable = true) →
      (∃ name, dir.Managed name ∧ (dir.file name).size = some sizeBytes ∧
        sha256 (dir.file name).content = hash) →
      ∀ (fuel : Nat) (events : List (Lib.Event InventoryCalls))
        (r : Option (PreflightResult × Scan))
        (d' : Database), enoughPages files ≤ fuel →
        Runs (Serves (dir.Answers sha256)) (.of files)
          (verifyPreflight fuel env originalName sizeBytes hash hashCache) events r d' →
        ∃ result scan, r = some (result, scan) ∧ result.disposition = .skip) := by
  refine ⟨fun answers hanswers fuel => Runs.exists (serves_total hanswers) _ _, ?_, ?_⟩
  · intro answers fuel events r d' hrun
    obtain ⟨hsome, hres⟩ := (hrun.traced []).post (verifyPreflight_spec rfl hsha)
    exact ⟨hsome, fun result scan hr => (hres result scan hr).matchSeen⟩
  · rintro sha256 dir hindexed hcache hreadable ⟨name, hmanaged, hsize, hhash⟩ fuel events r d'
      hfuel hrun
    obtain ⟨hsome, -⟩ := (hrun.traced []).post (verifyPreflight_spec rfl hsha)
    have hskip := (hrun.traced []).post (verifyPreflight_rest rfl hsha hindexed hcache hmanaged
      hsize (hreadable name hmanaged hsize) hhash)
    obtain ⟨⟨result, scan⟩, rfl⟩ := Option.isSome_iff_exists.mp (hsome hfuel)
    exact ⟨result, scan, rfl, hskip result scan rfl⟩

theorem photo_nodup : [ascii "a.jpg"].Nodup := by decide

theorem photo_component :
    ∀ name ∈ [ascii "a.jpg"], name ≠ [] ∧ ByteString.filename name = name := by decide

/-- A directory with one photo of three bytes. -/
def photoDirectory : Directory where
  entries := [ascii "a.jpg"]
  enumerationFails := false
  file _ := ⟨.regular, [1, 2, 3], false, 7, true⟩
  nodup := photo_nodup
  component := photo_component

def photoHash : ByteString :=
  ascii "039058c6f2c0cb492c533b0a4d14ef77cc0f78abccced5287d84a1a2011cfb81"

/-- Its row before the background indexing. -/
def photoInventory : Inventory := SortedTable.empty.upsert ⟨ascii "a.jpg", [], 3, 7, 0⟩

theorem answers_photo (c : FileCall) : ∃ x, photoDirectory.Answers (fun _ => photoHash) c x := by
  cases c with
  | now => exact ⟨(0 : Int), trivial⟩
  | stopRequested => exact ⟨false, trivial⟩
  | _ => exact ⟨_, rfl⟩

theorem verifyPreflight_correct_photo :
    ∃ events result scan d', Runs (Serves (photoDirectory.Answers fun _ => photoHash))
      (.of photoInventory)
      (verifyPreflight 6 ⟨fun _ => [], 0⟩ (ascii "b.jpg") 3 photoHash none) events
      (some (result, scan)) d' ∧ result.disposition = .skip := by
  obtain ⟨hruns, -, hfound⟩ := verifyPreflight_correct ⟨fun _ => [], 0⟩ (ascii "b.jpg") photoHash 3
    none photoInventory (by decide)
  obtain ⟨events, r, d', hrun⟩ := hruns _ answers_photo 6
  obtain ⟨result, scan, rfl, hskip⟩ := hfound (fun _ => photoHash) photoDirectory
    (fun name h => ⟨⟨ascii "a.jpg", [], 3, 7, 0⟩, by simp [photoInventory],
      (List.mem_singleton.mp h.1).symm, rfl, rfl, .inl rfl⟩)
    (fun _ _ h => by cases h) (fun _ _ _ => rfl)
    ⟨ascii "a.jpg", ⟨by decide, rfl, by decide⟩, rfl, rfl⟩ 6 events r d' (by decide) hrun
  exact ⟨events, result, scan, d', hrun, hskip⟩

end Preflight

end LocalMediaTransfer
