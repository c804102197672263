import LocalMediaTransfer.Server.Inventory.PreflightSearch
import LocalMediaTransfer.Server.Inventory.Reconcile

/-!
# The first round of the duplicate preflight

`FileWriter::hasPreflightCandidate` decides by name and size alone which files a client must hash;
the other files are uploaded without verification.

* `nextLive`, `hasPreflightCandidate` — the model.
* `nextLive_spec`, `hasPreflightCandidate_spec` — no candidate is passed over, while fewer than 256
  rows of vanished files stand in the way.
* `preflight_rounds_agree` — **the first round loses no duplicate**: where it finds no candidate,
  verification finds nothing either, whatever the hash.
-/

set_option autoImplicit false

namespace LocalMediaTransfer

namespace Preflight

open Lib HashEngine

/-! ## The model -/

/-- `findFirstCandidate`. -/
inductive CandidateCall where
  | findFirstCandidate (filename : ByteString) (sizeBytes : Nat)

/-- The calls of the first round. -/
abbrev FirstCalls : Interface where
  Call := CandidateCall
  Answer _ := Option FileInventoryRecord

abbrev CandidateProg := Prog (InventoryCalls.sum FirstCalls)

private def inventory {α : Type} (p : InventoryProg α) : CandidateProg α := p.left FirstCalls

def findFirstCandidate (filename : ByteString) (sizeBytes : Nat) :
    CandidateProg (Option FileInventoryRecord) :=
  Prog.ask (J := InventoryCalls.sum FirstCalls) (.inr (.findFirstCandidate filename sizeBytes))

/-- The first row of the query, which orders a row of the name before those of the size, and those
in any way. -/
def FirstCandidate (files : Inventory) (filename : ByteString) (sizeBytes : Nat) :
    Option FileInventoryRecord → Prop
  | none => ∀ row ∈ files, row.filename ≠ filename ∧ row.sizeBytes ≠ sizeBytes
  | some row => row ∈ files ∧ (row.filename = filename ∨
      (row.sizeBytes = sizeBytes ∧ ∀ other ∈ files, other.filename ≠ filename))

/-- The database and the directory. -/
def Finds (answers : (c : FileCall) → c.Answer → Prop) (d : Database) :
    (c : (InventoryCalls.sum FirstCalls).Call) → (InventoryCalls.sum FirstCalls).Answer c →
      Database → Prop
  | .inl c, x, d' => Serves answers d c x d'
  | .inr (.findFirstCandidate filename sizeBytes), x, d' =>
      FirstCandidate d.current filename sizeBytes x ∧ d' = d

/-- `RefreshInterval`, in nanoseconds. -/
def refreshInterval : Nat := 1000000000

/-- The test of `refreshDuplicateInventoryIfDue`; zero is no refresh so far. -/
def refreshDue (lastInventoryRefresh now : Nat) : Bool :=
  !(lastInventoryRefresh != 0 && decide (now - lastInventoryRefresh < refreshInterval))

/-- `refreshDuplicateInventoryIfDue`; no result is `InventoryStorageError`. -/
def refreshDuplicateInventoryIfDue (lastInventoryRefresh now : Nat) : CandidateProg (Option Unit) :=
  if refreshDue lastInventoryRefresh now then inventory reconcileDirectory else pure (some ())

/-- The loop of `hasPreflightCandidate` over at most so many rows. -/
def nextLive (safeName : ByteString) (sizeBytes : Nat) : Nat → CandidateProg Bool
  | 0 => pure false
  | attempts + 1 => do
      match ← findFirstCandidate safeName sizeBytes with
      | none => pure false
      | some candidate =>
          if (← inventory (fileStatus candidate.filename.filename)) = .regular then pure true
          else
            inventory (removeFile candidate.filename)
            nextLive safeName sizeBytes attempts

/-- `hasPreflightCandidate`; no result is an exception. -/
def hasPreflightCandidate (env : NameEnv) (lastInventoryRefresh now : Nat)
    (originalName : ByteString) (sizeBytes : Nat) : CandidateProg (Option Bool) := do
  match ← refreshDuplicateInventoryIfDue lastInventoryRefresh now with
  | none => pure none
  | some () =>
      let safeName := makeFinalFilename env originalName
      if (← inventory (fileStatus safeName.filename)) = .regular then pure (some true)
      else
        let found ← nextLive safeName sizeBytes 256
        pure (some found)

/-! ## No candidate is passed over -/

/-- The row has the name or the size. -/
def plausibleFor (safeName : ByteString) (sizeBytes : Nat) (row : FileInventoryRecord) : Bool :=
  row.filename == safeName || row.sizeBytes == sizeBytes

/-- The file of the row is there. -/
def live (dir : Directory) (row : FileInventoryRecord) : Bool :=
  (dir.file row.filename.filename).status == .regular

/-- How many rows with the name or the size stand for no file. -/
def staleRows (dir : Directory) (safeName : ByteString) (sizeBytes : Nat)
    (files : Inventory) : Nat :=
  files.rows.countP fun row => plausibleFor safeName sizeBytes row && !live dir row

/-- What is left of an inventory of which only rows without a file have been removed. -/
structure Thinned (dir : Directory) (d d' : Database) : Prop where
  idle : d'.working = none
  rows : ∀ row ∈ d'.files, row ∈ d.files
  live : ∀ row ∈ d.files, live dir row = true → row ∈ d'.files

section FirstRound

variable {sha256 : ByteString → ByteString} {dir : Directory} {d d₁ : Database}
  {safeName : ByteString} {sizeBytes : Nat}

theorem Thinned.refl (hidle : d.working = none) : Thinned dir d d :=
  ⟨hidle, fun _ h => h, fun _ h _ => h⟩

theorem Thinned.trans {d₂ : Database} (h : Thinned dir d d₁) (h' : Thinned dir d₁ d₂) :
    Thinned dir d d₂ :=
  ⟨h'.idle, fun row hrow => h.rows row (h'.rows row hrow),
    fun row hrow hlive => h'.live row (h.live row hrow hlive) hlive⟩

theorem Thinned.removeFile (hidle : d.working = none) {row : FileInventoryRecord}
    (hrow : row ∈ d.files) (hname : row.filename ≠ []) (hstale : Preflight.live dir row = false)
    (fault : Bool) : (d.serve fault (.removeFile row.filename)).2.files =
    d.files.erase row.filename ∧
      Thinned dir d (d.serve fault (.removeFile row.filename)).2 := by
  have hempty : row.filename.isEmpty = false := by
    rw [List.isEmpty_eq_false_iff]
    exact hname
  have hfiles : (d.serve fault (.removeFile row.filename)).2.files =
    d.files.erase row.filename := by
    simp only [Database.serve, Database.modify, hidle, Inventory.removeFile, hempty,
      Bool.false_eq_true, if_false]
  refine ⟨hfiles, by simp [Database.serve, Database.modify, hidle], fun other hother => ?_,
    fun other hother hlive => ?_⟩
  · rw [hfiles] at hother
    exact (SortedTable.mem_erase.mp hother).1
  · rw [hfiles]
    refine SortedTable.mem_erase.mpr ⟨hother, fun heq => ?_⟩
    obtain rfl := SortedTable.eq_of_key hother hrow heq
    rw [hlive] at hstale
    cases hstale

/-- **The loop of the first round** finds a row whose file is there, unless rows of vanished files
use up its attempts. -/
theorem nextLive_spec {attempts : Nat} (hidle : d.working = none)
    (hnamed : ∀ row ∈ d.files, row.filename ≠ []) :
    wp (Finds (dir.Answers sha256)) (nextLive safeName sizeBytes attempts)
      (fun found d' => Thinned dir d d' ∧ (found = false →
        staleRows dir safeName sizeBytes d.files < attempts →
        ∀ row ∈ d.files, plausibleFor safeName sizeBytes row = true → live dir row = false)) d := by
  induction attempts generalizing d with
  | zero => exact ⟨.refl hidle, fun _ h => absurd h (Nat.not_lt_zero _)⟩
  | succ attempts ih =>
    have hcurrent : d.current = d.files := by simp [Database.current, hidle]
    simp only [nextLive, wp_bind]
    rintro found d' ⟨hfound, hd⟩
    obtain rfl : d' = d := hd
    rw [hcurrent] at hfound
    simp only [wp]
    cases found with
    | none =>
      refine ⟨.refl hidle, fun _ _ row hrow hplausible => ?_⟩
      obtain ⟨hname, hsize⟩ := hfound row hrow
      simp [plausibleFor, hname, hsize] at hplausible
    | some candidate =>
      obtain ⟨hmem, hmatch⟩ := hfound
      simp only [wp_bind, inventory, wp_left, wp_fileStatus]
      refine serves_file (c := .status candidate.filename.filename) fun status hstatus => ?_
      obtain rfl : status = (dir.file candidate.filename.filename).status := hstatus
      split
      · exact ⟨.refl hidle, fun h => by cases h⟩
      · rename_i hgone
        have hstale : live dir candidate = false := by simpa [live] using hgone
        simp only [wp_bind, wp_left, wp_removeFile]
        refine @serves_db (dir.Answers sha256) d' (.removeFile candidate.filename) _ fun fault => ?_
        obtain ⟨hfiles, hthin⟩ := Thinned.removeFile hidle hmem (hnamed candidate hmem) hstale fault
        refine wp_mono (ih hthin.idle fun row hrow => hnamed row (hthin.rows row hrow)) ?_
        rintro found d₂ ⟨hthin', hnone⟩
        refine ⟨hthin.trans hthin', fun hf hlt row hrow hplausible => ?_⟩
        have hcounts : plausibleFor safeName sizeBytes candidate = true := by
          rcases hmatch with hname | ⟨hsize, -⟩
          · simp [plausibleFor, hname]
          · simp [plausibleFor, hsize]
        have hfewer : staleRows dir safeName sizeBytes
            (d'.serve fault (.removeFile candidate.filename)).2.files <
              staleRows dir safeName sizeBytes d'.files := by
          rw [hfiles]
          exact SortedTable.countP_erase_lt hmem (by rw [hcounts, hstale]; rfl)
        by_contra hlive
        have hthere : live dir row = true := Bool.not_eq_false _ ▸ hlive
        exact hlive (hnone hf (by omega) row (hthin.live row hrow hthere) hplausible)

/-- Rows of an inventory that the engine keeps: a managed file name each. -/
def WellNamed (files : Inventory) : Prop :=
  ∀ row ∈ files, row.filename ≠ [] ∧ row.filename.filename = row.filename ∧
    isManagedName row.filename = true

/-- Every managed file of the size has a row with that size, perhaps under another of its names, and
fewer than 256 rows with the name or the size are of vanished files. -/
structure Current (dir : Directory) (safeName : ByteString) (sizeBytes : Nat) (files : Inventory) :
    Prop where
  rows : ∀ name, dir.Recorded name sizeBytes →
    ∃ row ∈ files, row.sizeBytes = sizeBytes ∧ dir.file row.filename.filename = dir.file name
  stale : staleRows dir safeName sizeBytes files < 256

/-- What the first round comes to: neither the name nor, among the managed files, the size is
there. -/
structure NoCandidate (dir : Directory) (safeName : ByteString) (sizeBytes : Nat) : Prop where
  name : (dir.file safeName.filename).status ≠ .regular
  size : ∀ name, ¬dir.Recorded name sizeBytes

/-- The regular files under managed names are the listed ones, perhaps under other names: a
directory may know a file under several, as where upper and lower case are the same. -/
def AllListed (dir : Directory) : Prop :=
  ∀ name, name.filename = name → isManagedName name = true → (dir.file name).status = .regular →
    ∃ listed ∈ dir.entries, isManagedName listed = true ∧ dir.file listed = dir.file name

/-- After a refresh no row is of a vanished file. -/
theorem current_of_reconciled {files files' : Inventory} (h : Reconciled dir files files')
    (hstatus : ∀ row ∈ files, (dir.file row.filename.filename).status ≠ .failed) :
    Current dir safeName sizeBytes files' := by
  refine ⟨fun name hrecorded => ?_, ?_⟩
  · obtain ⟨row, hrow, -, rfl, hsize, -⟩ := h.current name sizeBytes hrecorded
    exact ⟨row, hrow, hsize, by rw [(dir.component _ hrecorded.1).2]⟩
  · have hnone : staleRows dir safeName sizeBytes files' = 0 := by
      refine List.countP_eq_zero.mpr fun row hrow => ?_
      have hlive : live dir row = true := by
        rw [live, beq_iff_eq]
        by_cases hrecorded : ∃ size, dir.Recorded row.filename size
        · obtain ⟨size, hmem, hregular, -⟩ := hrecorded
          rw [(dir.component _ hmem).2]
          exact hregular
        · obtain ⟨hold, hthere⟩ :=
            (h.others row fun size hsize => hrecorded ⟨size, hsize⟩).mp hrow
          cases hcase : (dir.file row.filename.filename).status with
          | regular => rfl
          | other => exact absurd (.inl hcase) hthere
          | notFound => exact absurd (.inr hcase) hthere
          | failed => exact absurd hcase (hstatus row hold)
      simp [hlive]
    omega

theorem wellNamed_of_reconciled {files files' : Inventory} (h : Reconciled dir files files')
    (hnamed : WellNamed files) : WellNamed files' := by
  intro row hrow
  by_cases hrecorded : ∃ size, dir.Recorded row.filename size
  · obtain ⟨size, hmem, -, hmanaged, -⟩ := hrecorded
    exact ⟨(dir.component _ hmem).1, (dir.component _ hmem).2, hmanaged⟩
  · exact hnamed row ((h.others row fun size hsize => hrecorded ⟨size, hsize⟩).mp hrow).1

/-- No row is live, so nothing of the name or the size is there. -/
theorem Current.noCandidate {files : Inventory} (h : Current dir safeName sizeBytes files)
    (hname : (dir.file safeName.filename).status ≠ .regular)
    (hnone : ∀ row ∈ files, plausibleFor safeName sizeBytes row = true → live dir row = false) :
    NoCandidate dir safeName sizeBytes := by
  refine ⟨hname, fun name hrecorded => ?_⟩
  obtain ⟨row, hrow, hsize, hsame⟩ := h.rows name hrecorded
  have hgone := hnone row hrow (by simp [plausibleFor, hsize])
  rw [live, hsame, hrecorded.2.1] at hgone
  cases hgone

/-- **The first round**, over a directory at rest. -/
theorem hasPreflightCandidate_spec {env : NameEnv} {last now : Nat} {originalName : ByteString}
    (hidle : d.working = none) (hnamed : WellNamed d.files)
    (hstatus : refreshDue last now = true →
      ∀ row ∈ d.files, (dir.file row.filename.filename).status ≠ .failed)
    (hcurrent : refreshDue last now = false →
      Current dir (makeFinalFilename env originalName) sizeBytes d.files) :
    wp (Finds (dir.Answers sha256)) (hasPreflightCandidate env last now originalName sizeBytes)
      (fun found d' => d'.working = none ∧ WellNamed d'.files ∧ (found = some false →
        NoCandidate dir (makeFinalFilename env originalName) sizeBytes)) d := by
  have hrest : ∀ d : Database, d.working = none → WellNamed d.files →
      Current dir (makeFinalFilename env originalName) sizeBytes d.files →
      wp (Finds (dir.Answers sha256)) (do
        if (← inventory (fileStatus (makeFinalFilename env originalName).filename)) = .regular then
          pure (some true)
        else
          let found ← nextLive (makeFinalFilename env originalName) sizeBytes 256
          pure (some found))
      (fun found d' => d'.working = none ∧ WellNamed d'.files ∧ (found = some false →
        NoCandidate dir (makeFinalFilename env originalName) sizeBytes)) d := by
    intro d hidle hnamed hcurrent
    simp only [wp_bind, inventory, wp_left, wp_fileStatus]
    refine serves_file (c := .status (makeFinalFilename env originalName).filename)
      fun status hstatus => ?_
    obtain rfl : status = (dir.file (makeFinalFilename env originalName).filename).status := hstatus
    split
    · exact ⟨hidle, hnamed, fun h => by cases h⟩
    · rename_i hname
      simp only [wp_bind]
      refine wp_mono (nextLive_spec hidle fun row hrow => (hnamed row hrow).1) ?_
      rintro found d' ⟨hthin, hnone⟩
      refine ⟨hthin.idle, fun row hrow => hnamed row (hthin.rows row hrow), fun hfound => ?_⟩
      cases hfound
      exact hcurrent.noCandidate hname (hnone rfl hcurrent.stale)
  unfold hasPreflightCandidate refreshDuplicateInventoryIfDue
  simp only [wp_bind]
  split
  · rename_i hdue
    simp only [inventory, wp_left]
    refine wp_mono (@reconcileDirectory_spec sha256 dir d hidle) ?_
    rintro (_ | ⟨⟩) d' ⟨hidle', hdone, hfailed⟩
    · refine ⟨hidle', ?_, fun h => by cases h⟩
      rw [(hfailed rfl).2]
      exact hnamed
    · obtain ⟨-, hreconciled⟩ := hdone rfl
      exact hrest d' hidle' (wellNamed_of_reconciled hreconciled hnamed)
        (current_of_reconciled hreconciled (hstatus hdue))
  · rename_i hdue
    exact hrest d hidle hnamed (hcurrent (Bool.not_eq_true _ ▸ hdue))

/-! ## Verification agrees -/

section Names

variable {answers : (c : FileCall) → c.Answer → Prop} {q : PreflightQuery} {scan : Scan}
  {before : Option PreflightHashCache} {events : List (Lib.Event InventoryCalls)}
  {P : ByteString → Prop}

/-- What is looked at is a candidate. -/
theorem verifyCandidates_names {candidates : List FileInventoryRecord} (hidle : d.working = none)
    (hkept : scan.Kept q before events) (hcandidates : ∀ c ∈ candidates, P c.filename)
    (hscan : ∀ look ∈ scan.looks, P look.filename) :
    wp (Traced (Serves answers)) (verifyCandidates q candidates scan)
      (fun r _ => ∀ look ∈ r.2.looks, P look.filename) (d, events) := by
  induction candidates generalizing d events scan with
  | nil => exact hscan
  | cons candidate rest ih =>
    simp only [verifyCandidates, wp_bind]
    refine wp_mono (verifyCandidate_spec hidle hkept) ?_
    rintro ⟨hit, scan'⟩ ⟨d', events'⟩ ⟨⟨hidle', -⟩, -, hkept', hlooks⟩
    have hscan' : ∀ look ∈ scan'.looks, P look.filename := by
      rcases hlooks with ⟨-, hsame⟩ | ⟨look, hlook, hname, -⟩
      · rw [show scan'.looks = scan.looks from hsame]
        exact hscan
      · rw [show scan'.looks = scan.looks ++ [look] from hlook]
        refine List.forall_mem_append.mpr ⟨hscan, List.forall_mem_singleton.mpr ?_⟩
        rw [hname]
        exact hcandidates candidate (List.mem_cons_self ..)
    cases hit with
    | true => exact hscan'
    | false =>
      exact ih hidle' hkept' (fun c hc => hcandidates c (List.mem_cons_of_mem _ hc)) hscan'

theorem verifyPages_names {fuel : Nat} {knownHashPages : Bool} {afterFilename : ByteString}
    (hidle : d.working = none) (hkept : scan.Kept q before events) (hunmatched : scan.Unmatched q)
    (hfiles : ∀ row ∈ d.files, P row.filename) (hscan : ∀ look ∈ scan.looks, P look.filename) :
    wp (Traced (Serves answers)) (verifyPages q fuel knownHashPages afterFilename scan)
      (fun r _ => ∀ result scan', r = some (result, scan') → ∀ look ∈ scan'.looks, P look.filename)
      (d, events) := by
  induction fuel generalizing d events scan knownHashPages afterFilename with
  | zero => exact fun _ _ h => by cases h
  | succ fuel ih =>
    simp only [verifyPages, wp_bind]
    refine wp_mono (nextCandidates_spec hidle) ?_
    rintro page ⟨d', events'⟩ ⟨hpage, hd, he⟩
    obtain rfl : d' = d := hd
    have hkept' := hkept.mono he
    have hmem : ∀ c ∈ page, c ∈ d'.files := fun c hc => mem_of_mem_pageOf (hpage ▸ hc)
    cases page.getLast? with
    | none =>
      simp only
      split
      · exact ih hidle hkept' hunmatched hfiles hscan
      · rintro result scan' ⟨⟩
        exact hscan
    | some last =>
      simp only [wp_bind]
      refine wp_mono (wp_and (verifyCandidates_spec hidle hkept' hunmatched)
        (verifyCandidates_names hidle hkept' (fun c hc => hfiles c (hmem c hc)) hscan)) ?_
      rintro ⟨hit, scan'⟩ ⟨d'', events''⟩ ⟨hspec, hlooks⟩
      have hnames := hspec.no_new_names hmem
      obtain ⟨hidle', -, -, hk, hu, -⟩ := hspec
      cases hit with
      | some name =>
        rintro result scan'' ⟨⟩
        exact hlooks
      | none =>
        refine ih hidle' hk (hu rfl) (fun row hrow => ?_) hlooks
        obtain ⟨row₀, hrow₀, heq⟩ := hnames row hrow
        rw [← heq]
        exact hfiles row₀ hrow₀

/-- **What verification looks at** is the file of the requested name, or one of a row. -/
theorem verifyPreflight_names {fuel : Nat} {env : NameEnv} {originalName hash : ByteString}
    {hashCache : Option PreflightHashCache} (hidle : d.working = none) (hsha : hash.length = 64)
    (hfiles : ∀ row ∈ d.files, P row.filename) (hname : P (makeFinalFilename env originalName)) :
    wp (Traced (Serves answers)) (verifyPreflight fuel env originalName sizeBytes hash hashCache)
      (fun r _ => ∀ result scan, r = some (result, scan) → ∀ look ∈ scan.looks, P look.filename)
      (d, []) := by
  unfold verifyPreflight
  rw [if_neg (by simpa using hsha)]
  simp only [wp_bind]
  refine wp_mono exactCandidates_spec ?_
  rintro candidates ⟨d', events⟩ ⟨hd, hexact⟩
  obtain rfl : d' = d := hd
  have hstart := (Scan.Kept.start ⟨makeFinalFilename env originalName, sizeBytes, hash⟩
    hashCache).mono (List.nil_sublist events)
  refine wp_mono (wp_and
    (verifyCandidates_spec hidle hstart (by simp [Scan.Unmatched, Scan.start]))
    (verifyCandidates_names (P := P) hidle hstart (fun c hc => by rw [(hexact c hc).1]; exact hname)
      (by simp [Scan.start]))) ?_
  rintro ⟨hit, scan⟩ ⟨d'', events''⟩ ⟨⟨hidle', hrows, -, hk, hu, -⟩, hlooks⟩
  cases hit with
  | some name =>
    rintro result scan' ⟨⟩
    exact hlooks
  | none =>
    refine verifyPages_names hidle' hk (hu rfl) (fun row hrow => ?_) hlooks
    by_cases hexactName : row.filename = makeFinalFilename env originalName
    · rw [hexactName]
      exact hname
    · exact hfiles row ((hrows row fun c hc => (hexact c hc).1 ▸ hexactName).mp hrow)

/-- The directory gives only the answers it can give. -/
theorem answered_of_runs {α : Type} {p : InventoryProg α} {a : α}
    (hrun : Runs (Serves answers) d p events a d₁) {c : FileCall} {x : c.Answer}
    (h : saw c x ∈ events) : answers c x := by
  induction hrun with
  | pure s a => cases h
  | call hs _ ih =>
    rcases List.mem_cons.mp h with heq | h
    · cases heq
      exact hs.1
    · exact ih h

end Names

/-- A look at rest: the file is there, and of the size. -/
theorem Look.Shown.at_rest {look : Look} {q : PreflightQuery}
    {hashCache : Option PreflightHashCache}
    {events : List (Lib.Event InventoryCalls)} (h : look.Shown q hashCache events)
    (hanswered : ∀ {c : FileCall} {x : c.Answer}, saw c x ∈ events → dir.Answers sha256 c x) :
    (dir.file look.filename.filename).status = .regular ∧
      (dir.file look.filename.filename).size = some look.sizeBytes ∧
      (look.matched q = true ∨ look.failed = true → look.sizeBytes = q.sizeBytes) := by
  obtain ⟨hseen, hverdict⟩ := h
  have hstatus : FileStatus.regular = (dir.file look.filename.filename).status :=
    hanswered (c := .status look.filename.filename) (hseen.subset (by simp))
  have hsize : some look.sizeBytes = (dir.file look.filename.filename).size :=
    hanswered (c := .fileSize .preflightBefore look.filename.filename) (hseen.subset (by simp))
  refine ⟨hstatus.symm, hsize.symm, ?_⟩
  obtain ⟨filename, storedHash, size, verdict⟩ := look
  cases verdict with
  | otherSize | settled => simp [Look.matched, Look.failed]
  | unreadable | changed | hashed modifiedTime hash => exact fun _ => hverdict.1

/-- Where there is no candidate, verification finds nothing. -/
theorem NoCandidate.upload (h : NoCandidate dir safeName sizeBytes) (hnamed : WellNamed d.files)
    (hlisted : AllListed dir) {hash : ByteString} {hashCache : Option PreflightHashCache}
    {result : PreflightResult}
    {scan : Scan} {events : List (Lib.Event InventoryCalls)}
    (hspec : ResultSpec ⟨safeName, sizeBytes, hash⟩ hashCache result scan events)
    (hanswered : ∀ {c : FileCall} {x : c.Answer}, saw c x ∈ events → dir.Answers sha256 c x)
    (hlooks : ∀ look ∈ scan.looks,
      look.filename = safeName ∨ ∃ row ∈ d.files, row.filename = look.filename) :
    result = ⟨.upload, safeName⟩ := by
  have hother : ∀ look ∈ scan.looks, look.filename ≠ safeName ∧ look.sizeBytes ≠ sizeBytes := by
    intro look hlook
    obtain ⟨hregular, hsize, -⟩ := (hspec.kept.shown look hlook).at_rest hanswered
    have hne : look.filename ≠ safeName := by
      intro heq
      rw [heq] at hregular
      exact h.name hregular
    refine ⟨hne, fun heq => ?_⟩
    obtain ⟨row, hrow, hname⟩ := (hlooks look hlook).resolve_left hne
    obtain ⟨-, hcomponent, hmanaged⟩ := hnamed row hrow
    rw [hname] at hcomponent hmanaged
    rw [hcomponent] at hregular hsize
    obtain ⟨listed, hentry, hlistedManaged, hsame⟩ := hlisted _ hcomponent hmanaged hregular
    rw [← hsame] at hregular hsize
    exact h.size listed ⟨hentry, hregular, hlistedManaged, heq ▸ hsize⟩
  have hquiet : ∀ look ∈ scan.looks, look.matched ⟨safeName, sizeBytes, hash⟩ = false ∧
      look.failed = false ∧ look.conflicts ⟨safeName, sizeBytes, hash⟩ = false := by
    intro look hlook
    obtain ⟨-, -, hsized⟩ := (hspec.kept.shown look hlook).at_rest hanswered
    obtain ⟨hname, hsize⟩ := hother look hlook
    refine ⟨?_, ?_, ?_⟩
    · exact Bool.eq_false_iff.mpr fun hm => hsize (hsized (.inl hm))
    · exact Bool.eq_false_iff.mpr fun hf => hsize (hsized (.inr hf))
    · rw [Look.conflicts, beq_eq_false_iff_ne.mpr hname, Bool.false_and]
  rcases hspec.answer with ⟨-, look, hlook, hmatched, -⟩ | ⟨-, rfl⟩
  · rw [(hquiet look hlook).1] at hmatched
    cases hmatched
  · have hconflict : scan.sameNameConflict = false := by
      rw [hspec.kept.conflict]
      exact List.any_eq_false.mpr fun look hlook =>
        Bool.eq_false_iff.mp (hquiet look hlook).2.2
    have hinconclusive : scan.inconclusive = false := by
      rw [hspec.kept.inconclusive]
      exact List.any_eq_false.mpr fun look hlook =>
        Bool.eq_false_iff.mp (hquiet look hlook).2.1
    simp [PreflightQuery.answer, hconflict, hinconclusive]

end FirstRound

/-- The row that the query returns when the others are in key order. -/
def firstRow (files : Inventory) (filename : ByteString) (sizeBytes : Nat) :
    Option FileInventoryRecord :=
  (files.lookup filename).or (files.rows.find? fun row => row.sizeBytes == sizeBytes)

theorem firstCandidate_firstRow (files : Inventory) (filename : ByteString) (sizeBytes : Nat) :
    FirstCandidate files filename sizeBytes (firstRow files filename sizeBytes) := by
  unfold firstRow
  cases hname : files.lookup filename with
  | some row =>
    obtain ⟨hrow, heq⟩ := SortedTable.lookup_eq_some.mp hname
    exact ⟨hrow, .inl heq⟩
  | none =>
    have hother := SortedTable.lookup_eq_none.mp hname
    rw [Option.none_or]
    cases hsize : files.rows.find? fun row => row.sizeBytes == sizeBytes with
    | some row =>
      exact ⟨List.mem_of_find?_eq_some hsize, .inr ⟨by simpa using List.find?_some hsize, hother⟩⟩
    | none =>
      exact fun row hrow => ⟨hother row hrow, by simpa using List.find?_eq_none.mp hsize row hrow⟩

/-- The directory at rest answers, and no statement fails. -/
def firstReply (sha256 : ByteString → ByteString) (dir : Directory) (d : Database) :
    (c : (InventoryCalls.sum FirstCalls).Call) → (InventoryCalls.sum FirstCalls).Answer c × Database
  | .inl c => dir.reply sha256 d c
  | .inr (.findFirstCandidate filename sizeBytes) => (firstRow d.current filename sizeBytes, d)

theorem finds_firstReply (sha256 : ByteString → ByteString) (dir : Directory) (d : Database)
    (c : (InventoryCalls.sum FirstCalls).Call) :
    Finds (dir.Answers sha256) d c (firstReply sha256 dir d c).1 (firstReply sha256 dir d c).2 := by
  rcases c with c | ⟨filename, sizeBytes⟩
  · exact dir.serves_reply sha256 d c
  · exact ⟨firstCandidate_firstRow _ _ _, rfl⟩

/-- One photo, and nothing else; upper and lower case of its name are the same. -/
def foldedDirectory : Directory where
  entries := [ascii "a.jpg"]
  enumerationFails := false
  file name := if name = ascii "a.jpg" ∨ name =
    ascii "A.jpg" then ⟨.regular, [1, 2, 3], false, 7, true⟩
    else ⟨.notFound, [], true, 0, false⟩
  nodup := photo_nodup
  component := photo_component

/-- The photo under its other name, and a file that is gone. -/
def staleInventory : Inventory :=
  (SortedTable.empty.upsert ⟨ascii "A.jpg", photoHash, 3, 7, 1⟩).upsert
    ⟨ascii "gone.jpg", photoHash, 4, 7, 1⟩

theorem allListed_folded : AllListed foldedDirectory := by
  intro name _ _ hregular
  refine ⟨ascii "a.jpg", List.mem_singleton_self _, by decide, ?_⟩
  have hname : name = ascii "a.jpg" ∨ name = ascii "A.jpg" := by
    by_contra hother
    simp [foldedDirectory, hother] at hregular
  simp [foldedDirectory, hname]

theorem wellNamed_stale : WellNamed staleInventory := by
  unfold WellNamed
  decide

theorem status_folded (name : ByteString) : (foldedDirectory.file name).status ≠ .failed := by
  unfold foldedDirectory
  dsimp only
  split <;> simp

theorem current_stale : Current foldedDirectory (ascii "b.jpg") 4 staleInventory where
  rows name h := by
    obtain rfl : name = ascii "a.jpg" := List.mem_singleton.mp h.1
    exact absurd h.2.2.2 (by decide)
  stale := by decide

/-- Both rounds of one name and size, by the calls that the directory answers. -/
theorem rounds_of_runWith (fuel : Nat) {last now : Nat} {originalName : ByteString}
    {sizeBytes : Nat}
    (h : (runWith (firstReply (fun _ => photoHash) foldedDirectory)
      (hasPreflightCandidate ⟨fun _ => [], 0⟩ last now originalName sizeBytes)
      (.of staleInventory)).1 = some false) :
    ∃ events d₁ events' r d₂,
      Runs (Finds (foldedDirectory.Answers fun _ => photoHash)) (.of staleInventory)
        (hasPreflightCandidate ⟨fun _ => [], 0⟩ last now originalName sizeBytes) events
        (some false) d₁ ∧
      d₁ = (runWith (firstReply (fun _ => photoHash) foldedDirectory)
        (hasPreflightCandidate ⟨fun _ => [], 0⟩ last now originalName sizeBytes)
        (.of staleInventory)).2 ∧
      Runs (Serves (foldedDirectory.Answers fun _ => photoHash)) d₁
        (verifyPreflight fuel ⟨fun _ => [], 0⟩ originalName sizeBytes photoHash none)
          events' r d₂ := by
  obtain ⟨events, hfirst⟩ := Runs.of_runWith (finds_firstReply (fun _ => photoHash) foldedDirectory)
    (hasPreflightCandidate ⟨fun _ => [], 0⟩ last now originalName sizeBytes) (.of staleInventory)
  rw [h] at hfirst
  obtain ⟨events', hverify⟩ := Runs.of_runWith (foldedDirectory.serves_reply fun _ => photoHash)
    (verifyPreflight fuel ⟨fun _ => [], 0⟩ originalName sizeBytes photoHash none) _
  exact ⟨events, _, events', _, _, hfirst, rfl, hverify⟩

/-- A photo of the size of a file that is gone, when the inventory was refreshed at `last`. -/
def PhotoUploaded (last : Nat) : Prop :=
  ∃ events d₁ events' result scan d₂,
    Runs (Finds (foldedDirectory.Answers fun _ => photoHash)) (.of staleInventory)
      (hasPreflightCandidate ⟨fun _ => [], 0⟩ last 6 (ascii "b.jpg") 4) events (some false) d₁ ∧
    Runs (Serves (foldedDirectory.Answers fun _ => photoHash)) d₁
      (verifyPreflight 8 ⟨fun _ => [], 0⟩ (ascii "b.jpg") 4 photoHash none) events'
      (some (result, scan)) d₂ ∧
    result = ⟨.upload, makeFinalFilename ⟨fun _ => [], 0⟩ (ascii "b.jpg")⟩

end Preflight

end LocalMediaTransfer
